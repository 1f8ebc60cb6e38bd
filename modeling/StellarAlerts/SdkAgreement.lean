import Mathlib.Algebra.Group.Int.Defs
import StellarAlerts.AsciiBytes
import StellarAlerts.SdkVerifiers
import StellarAlerts.WebhookSigner

/-!
The signer and the verifiers of the SDKs. The signer leaves a nonce that is empty out
with its dot, so all of them sign the same bytes if and only if there is a nonce
(`sdks_agree_iff`).
-/
namespace StellarAlerts.SdkAgreement
open AsciiBytes
open HexText (isHex toHex)
open HmacSha256 IntegerText SdkVerifiers
open Sha256 (utf8 utf8_append)
open WebhookHeader WebhookSigner

/-! ### Words without blanks -/

theorem visible_isWhiteSpace {c : Char} (visible : Visible c.toNat) : isWhiteSpace c = false := by
  obtain ⟨low,high⟩ := visible
  simp only [isWhiteSpace,List.contains_eq_mem,List.mem_cons,List.not_mem_nil,or_false,Bool.or_eq_false_iff,
    Bool.and_eq_false_iff,decide_eq_false_iff_not]
  omega

theorem visible_isSpace {c : Char} (visible : Visible c.toNat) : Python.isSpace c = false := by
  obtain ⟨low,high⟩ := visible
  simp only [Python.isSpace,visible_isWhiteSpace ⟨low,high⟩,Bool.false_or,Bool.and_eq_false_iff,decide_eq_false_iff_not]
  omega

theorem visible_digits (n : Nat) : ∀ c ∈ (toString n).toList, Visible c.toNat := by
  intro c listed
  obtain ⟨low,high⟩ := digit_range ((isDigits_iff.mp (decimal_toString n).1).2 c listed)
  exact ⟨by omega,by omega⟩

variable {n : Nat}

theorem visible_hex {text : String} (hex : isHex n text = true) : ∀ c ∈ text.toList, Visible c.toNat := by
  simp only [isHex,Bool.and_eq_true,List.all_eq_true] at hex
  intro c listed
  rcases hexChar_range (hex.2 c listed) with ⟨low,high⟩ | ⟨low,high⟩ | ⟨low,high⟩
  · exact ⟨by omega,by omega⟩
  · exact ⟨by omega,by omega⟩
  · exact ⟨by omega,by omega⟩

theorem visible_append {a b : List Char} (first : ∀ c ∈ a, Visible c.toNat) (second : ∀ c ∈ b, Visible c.toNat) :
    ∀ c ∈ a ++ b, Visible c.toNat := by
  intro c listed
  rcases List.mem_append.mp listed with left | right
  · exact first c left
  · exact second c right

variable {blank : Char → Bool} {word : List Char}

theorem stripEnds_visible (kept : ∀ {c : Char}, Visible c.toNat → blank c = false) (visible : ∀ c ∈ word, Visible c.toNat) :
    stripEnds blank word = word := by
  cases word with
  | nil => rfl
  | cons first rest =>
    obtain ⟨last,ends⟩ := Option.isSome_iff_exists.mp (List.getLast?_isSome.mpr (List.cons_ne_nil first rest))
    exact ends_kept (kept (visible first (List.mem_cons_self ..))) (kept (visible last (List.mem_of_mem_getLast? ends))) ends

theorem wrap64_small {n : Int} (low : -2 ^ 63 ≤ n) (high : n < 2 ^ 63) : wrap64 n = n :=
  Int.bmod_eq_of_le_mul_two (by omega) (by omega)

/-! ### The parts of a header -/

theorem header_parts (timestamp : Nat) {nonce : String} (plain : PlainNonce nonce) (some_ : nonce ≠ "") {signature : String}
    (hex : isHex 64 signature = true) :
    (buildWebhookHeaderValue timestamp nonce signature).toList.splitOn ',' =
      [['t','='] ++ (toString timestamp).toList,['n','='] ++ nonce.toList,['v','1','='] ++ signature.toList] := by
  rw [build_toList,if_pos some_,List.splitOn_append_cons_self,List.splitOn_append_cons_self,
    List.splitOn_eq_singleton (segment_timestamp timestamp).comma,List.splitOn_eq_singleton (segment_nonce plain some_).comma,
    List.splitOn_eq_singleton (segment_signature hex).comma]
  rfl

theorem readDigits_toString (n : Nat) : readDigits 10 (toString n).toList = some n := by
  obtain ⟨digits,value⟩ := decimal_toString n
  obtain ⟨some_,all⟩ := isDigits_iff.mp digits
  rw [readDigits,if_neg some_,foldlM_digits all]
  exact congrArg some value

theorem digits_unsigned (n : Nat) : ∀ rest : List Char, (toString n).toList ≠ '-' :: rest ∧ (toString n).toList ≠ '+' :: rest := by
  intro rest
  have digits := (isDigits_iff.mp (decimal_toString n).1).2
  refine ⟨?_,?_⟩
  · intro word
    exact absurd (digits '-' (word ▸ List.mem_cons_self ..)) (by decide)
  · intro word
    exact absurd (digits '+' (word ▸ List.mem_cons_self ..)) (by decide)

theorem parseInt64_toString (small : n < 2 ^ 63) : parseInt64 (toString n).toList = some (n : Int) := by
  have value := readDigits_toString n
  have unsigned := digits_unsigned n
  unfold parseInt64
  split
  next digits word => exact absurd word (unsigned digits).1
  next digits word => exact absurd word (unsigned digits).2
  next =>
    have kept : wrap64 (n : Int) = n := wrap64_small (by omega) (by omega)
    rw [value]
    simp [kept]

theorem visible_part {label : List Char} (first : ∀ c ∈ label, Visible c.toNat) (second : ∀ c ∈ word, Visible c.toNat)
    (kept : ∀ {c : Char}, Visible c.toNat → blank c = false) : stripEnds blank (label ++ word) = label ++ word :=
  stripEnds_visible kept (visible_append first second)

theorem ok_bind {ε α β : Type} (a : α) (f : α → Except ε β) : (Except.ok a >>= f) = f a := rfl
theorem visible_timestamp : ∀ c ∈ ['t','='], Visible c.toNat := by
  simp [Visible]
theorem visible_signature : ∀ c ∈ ['v','1','='], Visible c.toNat := by
  simp [Visible]

theorem nonce_part (kept : ∀ {c : Char}, Visible c.toNat → blank c = false) (word : List Char) :
    ['t','='].isPrefixOf (stripEnds blank (['n','='] ++ word)) = false ∧
      ['v','1','='].isPrefixOf (stripEnds blank (['n','='] ++ word)) = false := by
  have letter : blank 'n' = false := kept (by unfold Visible; decide)
  obtain ⟨others,ends⟩ := ends_first letter ('=' :: word)
  have stripped : stripEnds blank (['n','='] ++ word) = 'n' :: others := ends
  rw [stripped]
  exact ⟨rfl,rfl⟩

/-! ### The verifier for Rust -/

theorem rust_timestamp (small : n < 2 ^ 63) (found : Option Int × Option String) :
    Rust.readPart found (['t','='] ++ (toString n).toList) = .ok (some (n : Int),found.2) := by
  have part := visible_part visible_timestamp (visible_digits n) visible_isWhiteSpace
  have number : parseInt64 ((['t','='] ++ (toString n).toList).drop 2) = some (n : Int) := parseInt64_toString small
  unfold Rust.readPart
  rw [part]
  simp only [number]
  rfl

theorem rust_nonce (found : Option Int × Option String) (word : List Char) :
    Rust.readPart found (['n','='] ++ word) = .ok found := by
  obtain ⟨noTimestamp,noSignature⟩ := nonce_part visible_isWhiteSpace word
  unfold Rust.readPart
  exact (if_neg (by rw [Bool.not_eq_true]; exact noTimestamp)).trans (if_neg (by rw [Bool.not_eq_true]; exact noSignature))

theorem rust_signature {signature : String} (hex : isHex 64 signature = true) (found : Option Int × Option String) :
    Rust.readPart found (['v','1','='] ++ signature.toList) = .ok (found.1,some signature) := by
  have part := visible_part visible_signature (visible_hex hex) visible_isWhiteSpace
  have text : String.ofList ((['v','1','='] ++ signature.toList).drop 3) = signature := String.ofList_toList
  unfold Rust.readPart
  rw [part]
  simp only [text]
  rfl

variable {timestamp : Nat}

theorem rust_parse (small : timestamp < 2 ^ 63) {nonce : String} (plain : PlainNonce nonce) (some_ : nonce ≠ "")
    {signature : String} (hex : isHex 64 signature = true) :
    Rust.parseSignatureHeader (buildWebhookHeaderValue timestamp nonce signature) = .ok ((timestamp : Int),signature) := by
  have read : [['t','='] ++ (toString timestamp).toList,['n','='] ++ nonce.toList,['v','1','='] ++ signature.toList].foldlM
      Rust.readPart (none,none) = .ok (some (timestamp : Int),some signature) := by
    rw [List.foldlM_cons,rust_timestamp small]
    rw [ok_bind,List.foldlM_cons,rust_nonce]
    rw [ok_bind,List.foldlM_cons,rust_signature hex]
    rfl
  unfold Rust.parseSignatureHeader
  rw [header_parts timestamp plain some_ hex,read]

/-! ### The verifier for Python -/

section
variable (python : Python.Interpreter)

variable {n : Nat}

theorem digits_length (safe : n ≤ MAX_SAFE_INTEGER) : (toString n).toList.length ≤ 16 := by
  rw [Nat.toString_eq_repr,Nat.toList_repr]
  exact (Nat.length_toDigits_le_iff (by decide) (by decide)).mpr (Nat.lt_of_le_of_lt safe (by decide))

theorem within_limit {length : Nat} (short : length ≤ 16) : python.maxStrDigits.any (· < length) = false := by
  cases limitIs : python.maxStrDigits with
  | none => rfl
  | some limit =>
    have large := python.threshold limit limitIs
    simp only [Option.any_some,decide_eq_false_iff_not]
    omega

theorem mapM_digit {word : List Char} (digits : ∀ c ∈ word, c.isDigit = true) :
    word.mapM python.digit = some (word.map fun c => c.toNat - '0'.toNat) := by
  induction word with
  | nil => rfl
  | cons c rest ih =>
    have first : python.digit c = some (c.toNat - '0'.toNat) := if_pos (digits c (List.mem_cons_self ..))
    rw [List.mapM_cons,first,ih fun d listed => digits d (List.mem_cons_of_mem c listed)]
    rfl

theorem readInt_toString (safe : n ≤ MAX_SAFE_INTEGER) : python.readInt (toString n).toList = some n := by
  obtain ⟨digits,value⟩ := decimal_toString n
  obtain ⟨some_,all⟩ := isDigits_iff.mp digits
  have underscores : '_' ∉ (toString n).toList := fun listed => absurd (all '_' listed) (by decide)
  unfold Python.Interpreter.readInt
  rw [List.splitOn_eq_singleton underscores]
  simp only [List.mem_singleton,some_.symm,↓reduceIte,List.flatten_cons,List.flatten_nil,List.append_nil,
    mapM_digit python all,List.length_map,within_limit python (digits_length safe),Bool.false_eq_true,List.foldl_map]
  exact congrArg some value

theorem int_toString (safe : n ≤ MAX_SAFE_INTEGER) : python.int (toString n).toList = some (n : Int) := by
  have unsigned := digits_unsigned n
  have value := readInt_toString python safe
  unfold Python.Interpreter.int
  rw [stripEnds_visible visible_isWhiteSpace (visible_digits n)]
  split
  next digits word => exact absurd word (unsigned digits).1
  next digits word => exact absurd word (unsigned digits).2
  next =>
    rw [value]
    rfl

theorem python_timestamp (safe : n ≤ MAX_SAFE_INTEGER) (found : Option Int × Option String) :
    python.readPart found (['t','='] ++ (toString n).toList) = some (some (n : Int),found.2) := by
  have part := visible_part visible_timestamp (visible_digits n) visible_isSpace
  have number : python.int ((['t','='] ++ (toString n).toList).drop 2) = some (n : Int) := int_toString python safe
  unfold Python.Interpreter.readPart
  rw [part]
  simp only [number]
  rfl

theorem python_nonce (found : Option Int × Option String) (word : List Char) :
    python.readPart found (['n','='] ++ word) = some found := by
  obtain ⟨noTimestamp,noSignature⟩ := nonce_part visible_isSpace word
  unfold Python.Interpreter.readPart
  exact (if_neg (by rw [Bool.not_eq_true]; exact noTimestamp)).trans (if_neg (by rw [Bool.not_eq_true]; exact noSignature))

theorem python_signature {signature : String} (hex : isHex 64 signature = true) (found : Option Int × Option String) :
    python.readPart found (['v','1','='] ++ signature.toList) = some (found.1,some signature) := by
  have part := visible_part visible_signature (visible_hex hex) visible_isSpace
  have text : String.ofList ((['v','1','='] ++ signature.toList).drop 3) = signature := String.ofList_toList
  unfold Python.Interpreter.readPart
  rw [part]
  simp only [text]
  rfl

theorem python_parse {timestamp : Nat} (safe : timestamp ≤ MAX_SAFE_INTEGER) {nonce : String} (plain : PlainNonce nonce)
    (some_ : nonce ≠ "") {signature : String} (hex : isHex 64 signature = true) :
    python.parseSignatureHeader (buildWebhookHeaderValue timestamp nonce signature) = some ((timestamp : Int),signature) := by
  have read : [['t','='] ++ (toString timestamp).toList,['n','='] ++ nonce.toList,['v','1','='] ++ signature.toList].foldlM
      python.readPart (none,none) = some (some (timestamp : Int),some signature) := by
    rw [List.foldlM_cons,python_timestamp python safe]
    change List.foldlM python.readPart _ _ = _
    rw [List.foldlM_cons,python_nonce]
    change List.foldlM python.readPart _ _ = _
    rw [List.foldlM_cons,python_signature python hex]
    rfl
  unfold Python.Interpreter.parseSignatureHeader
  rw [header_parts timestamp plain some_ hex,read]

end

/-! ### The verifier for Go -/

section
variable {encodings : List (List UInt8)} {b : UInt8} (apart : ∀ space ∈ encodings, b ∉ space ∧ space ≠ [])
include apart

theorem dropSpaces_kept (rounds : Nat) (rest : List UInt8) : Go.dropSpaces encodings rounds (b :: rest) = b :: rest := by
  cases rounds with
  | zero => rfl
  | succ rounds =>
    have none_ : encodings.find? (fun space => space.isPrefixOf (b :: rest)) = none := by
      rw [List.find?_eq_none]
      intro space listed
      obtain ⟨absent,some_⟩ := apart space listed
      cases space with
      | nil => exact absurd rfl some_
      | cons c others =>
        have other : (c == b) = false := beq_eq_false_iff_ne.mpr fun same => absent (same ▸ List.mem_cons_self ..)
        simp [List.isPrefixOf,other]
    rw [Go.dropSpaces,none_]

theorem dropSpaces_stops (rounds : Nat) (first rest : List UInt8) :
    ∃ others, Go.dropSpaces encodings rounds (first ++ b :: rest) = others ++ b :: rest := by
  induction rounds generalizing first with
  | zero => exact ⟨first,rfl⟩
  | succ rounds ih =>
    cases found : encodings.find? (fun space => space.isPrefixOf (first ++ b :: rest)) with
    | none => exact ⟨first,by rw [Go.dropSpaces,found]⟩
    | some space =>
      have matches_ := List.find?_some found
      have starts : space <+: first ++ b :: rest := List.isPrefixOf_iff_prefix.mp matches_
      have absent : b ∉ space := (apart space (List.mem_of_find?_eq_some found)).1
      have short : space.length ≤ first.length := by
        rcases List.prefix_or_prefix_of_prefix starts (List.prefix_append first (b :: rest)) with inside | ⟨more,same⟩
        · exact inside.length_le
        · cases more with
          | nil => simp [← same]
          | cons c more =>
            obtain ⟨later,whole⟩ := starts
            rw [← same,List.append_assoc,List.append_cancel_left_eq] at whole
            injection whole with letter _
            exact absurd (by simp [← same,letter]) absent
      rw [Go.dropSpaces,found]
      dsimp only
      rw [List.drop_append_of_le_length short]
      exact ih (first.drop space.length)

end

variable {b : UInt8}

theorem spaces_apart (visible : Visible b.toNat) : ∀ space ∈ Go.spaces, b ∉ space ∧ space ≠ [] := by
  have blanks : ∀ space ∈ Go.spaces, space ≠ [] ∧ ∀ c ∈ space, ¬ Visible c.toNat := by
    unfold Visible
    decide +kernel
  intro space listed
  obtain ⟨some_,all⟩ := blanks space listed
  exact ⟨fun member => all b member visible,some_⟩

theorem reversed_apart (visible : Visible b.toNat) : ∀ space ∈ Go.spaces.map List.reverse, b ∉ space ∧ space ≠ [] := by
  intro space listed
  obtain ⟨forward,member,rfl⟩ := List.mem_map.mp listed
  obtain ⟨absent,some_⟩ := spaces_apart visible forward member
  exact ⟨fun inside => absent (List.mem_reverse.mp inside),fun empty => some_ (List.reverse_eq_nil_iff.mp empty)⟩

theorem trimSpace_visible {word : List UInt8} (visible : ∀ b ∈ word, Visible b.toNat) : Go.TrimSpace word = word := by
  cases word with
  | nil => rfl
  | cons first rest =>
    obtain ⟨last,ends⟩ := Option.isSome_iff_exists.mp (List.getLast?_isSome.mpr (List.cons_ne_nil first rest))
    obtain ⟨others,word⟩ := List.getLast?_eq_some_iff.mp ends
    unfold Go.TrimSpace
    rw [dropSpaces_kept (spaces_apart (visible first (List.mem_cons_self ..)))]
    simp only
    rw [word,List.reverse_append,List.reverse_singleton,List.singleton_append,
      dropSpaces_kept (reversed_apart (visible last (List.mem_of_mem_getLast? ends))),List.reverse_cons,List.reverse_reverse]

theorem trimSpace_first (visible : Visible b.toNat) (rest : List UInt8) :
    ∃ others, Go.TrimSpace (b :: rest) = b :: others := by
  unfold Go.TrimSpace
  rw [dropSpaces_kept (spaces_apart visible)]
  simp only
  rw [List.reverse_cons]
  obtain ⟨others,dropped⟩ := dropSpaces_stops (reversed_apart visible) (b :: rest).length rest.reverse []
  refine ⟨others.reverse,?_⟩
  rw [dropped,List.reverse_append]
  rfl

theorem visible_bytes (visible : ∀ c ∈ word, Visible c.toNat) :
    ∀ b ∈ word.flatMap String.utf8EncodeChar, Visible b.toNat := by
  intro b listed
  rw [encode_ascii fun c member => Nat.lt_of_lt_of_le (visible c member).2 (by decide)] at listed
  obtain ⟨c,member,rfl⟩ := List.mem_map.mp listed
  have range := visible c member
  obtain ⟨low,high⟩ := range
  rw [UInt8.toNat_ofNat',Nat.mod_eq_of_lt (by omega)]
  exact ⟨low,high⟩

theorem go_timestamp (small : n < 2 ^ 63) (found : Int × List UInt8) :
    Go.readPart found ((['t','='] ++ (toString n).toList).flatMap String.utf8EncodeChar) = .ok ((n : Int),found.2) := by
  have part := trimSpace_visible (visible_bytes (visible_append visible_timestamp (visible_digits n)))
  have letters : ((toString n).toList.flatMap String.utf8EncodeChar).map (fun b => Char.ofNat b.toNat) = (toString n).toList := by
    have ascii : ∀ c ∈ (toString n).toList, c.toNat < 128 :=
      fun c member => Nat.lt_of_lt_of_le (visible_digits n c member).2 (by decide)
    rw [encode_ascii ascii,List.map_map]
    exact (List.map_congr_left fun c member => letter_of_byte (ascii c member)).trans (List.map_id _)
  have number : Go.ParseInt (((['t','='] ++ (toString n).toList).flatMap String.utf8EncodeChar).drop 2) = some (n : Int) := by
    have dropped : ((['t','='] ++ (toString n).toList).flatMap String.utf8EncodeChar).drop 2 =
        (toString n).toList.flatMap String.utf8EncodeChar := rfl
    rw [dropped,Go.ParseInt,letters,parseInt64_toString small]
  unfold Go.readPart
  rw [part]
  simp only [number]
  rfl

theorem go_nonce (found : Int × List UInt8) (word : List Char) :
    Go.readPart found ((['n','='] ++ word).flatMap String.utf8EncodeChar) = .ok found := by
  have letter : Visible (0x6E : UInt8).toNat := by
    unfold Visible
    decide +kernel
  obtain ⟨others,ends⟩ := trimSpace_first letter (0x3D :: word.flatMap String.utf8EncodeChar)
  have part : Go.TrimSpace ((['n','='] ++ word).flatMap String.utf8EncodeChar) = 0x6E :: others := ends
  unfold Go.readPart
  rw [part]
  rfl

theorem go_signature {signature : String} (hex : isHex 64 signature = true) (found : Int × List UInt8) :
    Go.readPart found ((['v','1','='] ++ signature.toList).flatMap String.utf8EncodeChar) = .ok (found.1,utf8 signature) := by
  have part := trimSpace_visible (visible_bytes (visible_append visible_signature (visible_hex hex)))
  unfold Go.readPart
  rw [part]
  rfl

theorem go_parts (timestamp : Nat) {nonce : String} (plain : PlainNonce nonce) (some_ : nonce ≠ "") {signature : String}
    (hex : isHex 64 signature = true) :
    (utf8 (buildWebhookHeaderValue timestamp nonce signature)).splitOn 0x2C =
      [(['t','='] ++ (toString timestamp).toList).flatMap String.utf8EncodeChar,
        (['n','='] ++ nonce.toList).flatMap String.utf8EncodeChar,
        (['v','1','='] ++ signature.toList).flatMap String.utf8EncodeChar] := by
  have absent : ∀ {word : List Char}, ',' ∉ word → (0x2C : UInt8) ∉ word.flatMap String.utf8EncodeChar :=
    fun plain => byte_not_mem (by decide) plain
  have joined : ∀ a b : List Char, (a ++ ',' :: b).flatMap String.utf8EncodeChar =
      a.flatMap String.utf8EncodeChar ++ 0x2C :: b.flatMap String.utf8EncodeChar := fun a b => List.flatMap_append
  rw [utf8,build_toList,if_pos some_,joined,joined,List.splitOn_append_cons_self,List.splitOn_append_cons_self,
    List.splitOn_eq_singleton (absent (segment_timestamp timestamp).comma),
    List.splitOn_eq_singleton (absent (segment_nonce plain some_).comma),
    List.splitOn_eq_singleton (absent (segment_signature hex).comma)]
  rfl

theorem go_parse (positive : 0 < timestamp) (small : timestamp < 2 ^ 63) {nonce : String} (plain : PlainNonce nonce)
    (some_ : nonce ≠ "") {signature : String} (hex : isHex 64 signature = true) :
    Go.parseSignatureHeader (utf8 (buildWebhookHeaderValue timestamp nonce signature)) =
      .ok ((timestamp : Int),utf8 signature) := by
  have read : [(['t','='] ++ (toString timestamp).toList).flatMap String.utf8EncodeChar,
      (['n','='] ++ nonce.toList).flatMap String.utf8EncodeChar,
      (['v','1','='] ++ signature.toList).flatMap String.utf8EncodeChar].foldlM Go.readPart (0,[]) =
        .ok ((timestamp : Int),utf8 signature) := by
    rw [List.foldlM_cons,go_timestamp small]
    rw [ok_bind,List.foldlM_cons,go_nonce]
    rw [ok_bind,List.foldlM_cons,go_signature hex]
    rfl
  have bytes : utf8 signature ≠ [] := by
    intro empty
    have text : signature = "" := Sha256.utf8_injective empty
    rw [text] at hex
    exact absurd hex (by decide)
  have found : ¬ ((timestamp : Int) = 0 ∨ utf8 signature = []) := by
    rintro (none_ | empty)
    · omega
    · exact bytes empty
  unfold Go.parseSignatureHeader
  rw [go_parts timestamp plain some_ hex,read]
  exact if_neg found

/-! ### What is signed -/

theorem data_bytes (payload : String) (timestamp : Nat) {nonce : String} (some_ : nonce ≠ "") :
    utf8 (buildWebhookDataToSign payload timestamp nonce) =
      utf8 (toString timestamp) ++ utf8 "." ++ utf8 nonce ++ utf8 "." ++ utf8 payload := by
  unfold buildWebhookDataToSign
  rw [if_pos some_]
  simp only [utf8_append,List.append_assoc]
  rfl

theorem data_bytes_empty (payload : String) (timestamp : Nat) :
    utf8 (buildWebhookDataToSign payload timestamp "") = utf8 (toString timestamp) ++ utf8 "." ++ utf8 payload := by
  unfold buildWebhookDataToSign
  rw [if_neg (by simp)]
  simp only [utf8_append]
  rfl

theorem go_bytes (payload : String) (timestamp : Nat) {nonce : String} (some_ : nonce ≠ "") :
    Go.signingPayload (utf8 payload) timestamp (utf8 nonce) = utf8 (buildWebhookDataToSign payload timestamp nonce) := by
  rw [data_bytes payload timestamp some_]
  rfl

theorem rust_text (platform : Rust.Platform) (payload : String) (timestamp : Nat) {given : Option String}
    (some_ : given.getD "" ≠ "") :
    Rust.WebhookVerifier.signingPayload platform (utf8 payload) timestamp given =
      buildWebhookDataToSign payload timestamp (given.getD "") := by
  unfold Rust.WebhookVerifier.signingPayload buildWebhookDataToSign
  rw [ByteTexts.utf8Text_utf8,if_pos some_]
  rfl

theorem str_toString (python : Python.Interpreter) (safe : n ≤ MAX_SAFE_INTEGER) :
    python.str (n : Int) = .ok (toString n) := by
  unfold Python.Interpreter.str
  rw [Int.natAbs_natCast,within_limit python (digits_length safe)]
  rfl

theorem python_text (python : Python.Interpreter) (payload : String) (safe : timestamp ≤ MAX_SAFE_INTEGER)
    {given : Option String} (some_ : given.getD "" ≠ "") :
    python.signingPayload (utf8 payload) timestamp given =
      .ok (buildWebhookDataToSign payload timestamp (given.getD "")) := by
  have decoded : String.fromUTF8? (utf8 payload).toByteArray = some payload := by
    have bytes : (utf8 payload).toByteArray = payload.toByteArray := String.utf8Encode_toList
    rw [String.fromUTF8?,bytes,dif_pos payload.isValidUTF8]
    rfl
  unfold Python.Interpreter.signingPayload buildWebhookDataToSign
  rw [str_toString python safe,decoded,if_pos some_]
  rfl

/-! ### What is accepted -/

/-- What the signer is given, and what the verifiers are: the nonce may be left out where it is empty. -/
structure Request where
  payload : String
  timestamp : Nat
  secret : String
  nonce : Option String
  now : Nat
  toleranceMs : Nat

def Request.nonceText (r : Request) : String := r.nonce.getD ""
def Request.header (r : Request) : String :=
  (generateWebhookSignature r.payload r.secret r.timestamp r.nonceText).headerValue

structure Request.Meant (r : Request) : Prop where
  positive : 0 < r.timestamp
  safe : r.timestamp ≤ MAX_SAFE_INTEGER
  plain : PlainNonce r.nonceText
  valid : validatePayload (.string r.payload) = .ok r.payload
  within : withinTolerance r.now r.timestamp r.toleranceMs = true
  clock : r.now < 2 ^ 63

def Request.go (r : Request) : VerificationResult :=
  ((⟨utf8 r.secret,r.toleranceMs⟩ : Go.Verifier).Verify [] ⟨utf8 r.payload,utf8 r.header,utf8 r.nonceText,r.now⟩).1
def Request.rust (r : Request) (platform : Rust.Platform) : Ended :=
  ((⟨r.secret,r.toleranceMs⟩ : Rust.WebhookVerifier).verify platform [] ⟨utf8 r.payload,r.header,r.nonce,some r.now⟩).1
def Request.python (r : Request) (python : Python.Interpreter) : Ended :=
  ((⟨r.secret,r.toleranceMs⟩ : Python.WebhookVerifier).verify python [] ⟨utf8 r.payload,r.header,r.nonce,none,r.now⟩).1

/-- The verifiers accept the header, and sign the same bytes. -/
structure Request.Agree (r : Request) (platform : Rust.Platform) (python : Python.Interpreter) : Prop where
  signer : verifyWebhookSignatureSync r.now (.string r.payload) (.string r.header) r.secret r.toleranceMs r.nonce none = true
  goValid : r.go.valid = true
  rustValid : (r.rust platform).valid = true
  pythonValid : (r.python python).valid = true
  goBytes : Go.signingPayload (utf8 r.payload) r.timestamp (utf8 r.nonceText) =
    utf8 (buildWebhookDataToSign r.payload r.timestamp r.nonceText)
  rustBytes : utf8 (Rust.WebhookVerifier.signingPayload platform (utf8 r.payload) r.timestamp r.nonce) =
    utf8 (buildWebhookDataToSign r.payload r.timestamp r.nonceText)
  pythonBytes : (python.signingPayload (utf8 r.payload) r.timestamp r.nonce).map utf8 =
    .ok (utf8 (buildWebhookDataToSign r.payload r.timestamp r.nonceText))

def Request.signature (r : Request) : String :=
  computeLocalHmacSignature (buildWebhookDataToSign r.payload r.timestamp r.nonceText) r.secret
theorem visible_data (r : Request) : ∀ c ∈ r.signature.toList, Visible c.toNat :=
  visible_hex (signature_hex r.payload r.secret r.timestamp r.nonceText)

theorem fit_small (platform : Rust.Platform) (overflow : String) {n : Int} (low : -2 ^ 63 ≤ n) (high : n < 2 ^ 63) :
    platform.fit overflow n = .ok n := by
  rw [Rust.Platform.fit,wrap64_small low high]
  exact if_neg (by simp)

theorem drift_small (platform : Rust.Platform) {a b : Int} (low : -2 ^ 63 < a - b) (high : a - b < 2 ^ 63) :
    platform.drift a b = .ok ((a - b).natAbs : Int) := by
  unfold Rust.Platform.drift
  rw [fit_small platform _ (by omega) high]
  by_cases negative : a - b < 0
  · refine (if_pos negative).trans ?_
    rw [fit_small platform _ (by omega) (by omega)]
    exact congrArg Except.ok (by omega)
  · refine (if_neg negative).trans ?_
    exact congrArg Except.ok (by omega)

theorem rust_inTime (platform : Rust.Platform) {now toleranceMs : Nat} (clock : now < 2 ^ 63) (small : timestamp < 2 ^ 63)
    (within : withinTolerance now timestamp toleranceMs = true) (payload : List UInt8) (header secret : String)
    (nonce : Option String) :
    (⟨secret,toleranceMs⟩ : Rust.WebhookVerifier).checkDrift platform ⟨payload,header,nonce,some now⟩ timestamp = none := by
  obtain ⟨late,early⟩ := of_decide_eq_true within
  have stamp : wrap64 (now : Int) = now := wrap64_small (by omega) (by omega)
  have drift : platform.drift (wrap64 (now : Int)) timestamp = .ok (((now : Int) - timestamp).natAbs : Int) := by
    rw [stamp]
    exact drift_small platform (by omega) (by omega)
  have bounded : (⟨secret,toleranceMs⟩ : Rust.WebhookVerifier).boundDrift (.ok (((now : Int) - timestamp).natAbs : Int)) = none :=
    if_neg (by simp only; omega)
  exact (congrArg (⟨secret,toleranceMs⟩ : Rust.WebhookVerifier).boundDrift drift).trans bounded

theorem rust_verify {v : Rust.WebhookVerifier} {platform : Rust.Platform} {call : Rust.Call} {timestamp : Int}
    {signature : String} (parsed : Rust.parseSignatureHeader call.signatureHeader = .ok (timestamp,signature))
    (inTime : v.checkDrift platform call timestamp = none)
    (signs : v.sign platform call.payload timestamp call.nonce = signature) :
    (v.verify platform [] call).1.valid = true := by
  unfold Rust.WebhookVerifier.verify
  rw [parsed]
  dsimp only
  rw [inTime]
  simp [Rust.WebhookVerifier.checkSignature,signs,Ended.valid]

section
variable {r : Request} (meant : r.Meant) (some_ : r.nonceText ≠ "")
include meant some_

theorem signer_accepts :
    verifyWebhookSignatureSync r.now (.string r.payload) (.string r.header) r.secret r.toleranceMs r.nonce none = true := by
  have parses : parseWebhookSignatureHeader (.string r.header) = .ok ⟨r.timestamp,r.nonceText,r.signature⟩ :=
    parse_generated ⟨meant.positive,meant.safe⟩ meant.plain r.payload r.secret
  have nonceIs : effectiveNonce r.nonceText r.nonce = r.nonceText := if_pos some_
  have same : (generateWebhookSignature r.payload r.secret r.timestamp r.nonceText).signature = r.signature := rfl
  unfold verifyWebhookSignatureSync
  rw [meant.valid,parses]
  simp [verifyParsedSignatureSet,verifyParsedSignature,meant.within,nonceIs,safeTimingSafeEqual,same]

theorem go_accepts : r.go.valid = true := by
  obtain ⟨positive,safe,plain,_,within,clock⟩ := meant
  have small : r.timestamp < 2 ^ 63 := Nat.lt_of_le_of_lt safe (by decide)
  obtain ⟨late,early⟩ := of_decide_eq_true within
  have parses : Go.parseSignatureHeader (utf8 r.header) = .ok ((r.timestamp : Int),utf8 r.signature) :=
    go_parse positive small plain some_ (signature_hex r.payload r.secret r.timestamp r.nonceText)
  have difference : wrap64 ((r.now : Int) - r.timestamp) = r.now - r.timestamp := wrap64_small (by omega) (by omega)
  have inTime : ¬ (r.toleranceMs : Int) < Go.abs (wrap64 ((r.now : Int) - r.timestamp)) := by
    rw [difference,Go.abs]
    by_cases negative : (r.now : Int) - r.timestamp < 0
    · rw [if_pos negative,wrap64_small (by omega) (by omega)]
      omega
    · rw [if_neg negative]
      omega
  have signs : (⟨utf8 r.secret,r.toleranceMs⟩ : Go.Verifier).sign (utf8 r.payload) r.timestamp (utf8 r.nonceText) =
      utf8 r.signature := by
    rw [Go.Verifier.sign,go_bytes r.payload r.timestamp some_]
    rfl
  unfold Request.go Go.Verifier.Verify
  rw [parses]
  simp [Go.Verifier.checkDrift,inTime,Go.Verifier.checkSignature,signs]

theorem rust_accepts (platform : Rust.Platform) : (r.rust platform).valid = true := by
  obtain ⟨positive,safe,plain,_,within,clock⟩ := meant
  have small : r.timestamp < 2 ^ 63 := Nat.lt_of_le_of_lt safe (by decide)
  have parses : Rust.parseSignatureHeader r.header = .ok ((r.timestamp : Int),r.signature) :=
    rust_parse small plain some_ (signature_hex r.payload r.secret r.timestamp r.nonceText)
  have signs : (⟨r.secret,r.toleranceMs⟩ : Rust.WebhookVerifier).sign platform (utf8 r.payload) r.timestamp r.nonce =
      r.signature := by
    rw [Rust.WebhookVerifier.sign,rust_text platform r.payload r.timestamp some_]
    rfl
  exact rust_verify parses (rust_inTime platform clock small within _ _ _ _) signs

theorem python_accepts (python : Python.Interpreter) : (r.python python).valid = true := by
  obtain ⟨positive,safe,plain,_,within,clock⟩ := meant
  obtain ⟨late,early⟩ := of_decide_eq_true within
  have parses : python.parseSignatureHeader r.header = some ((r.timestamp : Int),r.signature) :=
    python_parse python safe plain some_ (signature_hex r.payload r.secret r.timestamp r.nonceText)
  have inTime : (⟨r.secret,r.toleranceMs⟩ : Python.WebhookVerifier).checkDrift python
      ⟨utf8 r.payload,r.header,r.nonce,none,r.now⟩ r.timestamp = none :=
    if_neg (by simp only [Python.Call.now,Option.getD_none]; omega)
  have signs : (⟨r.secret,r.toleranceMs⟩ : Python.WebhookVerifier).sign python (utf8 r.payload) r.timestamp r.nonce =
      .ok r.signature := by
    rw [Python.WebhookVerifier.sign,python_text python r.payload safe some_]
    rfl
  have same : Python.compareDigest r.signature r.signature = .ok true := by
    have ascii : (r.signature.toList ++ r.signature.toList).any (128 ≤ ·.toNat) = false := by
      rw [List.any_eq_false]
      intro c listed
      have range := visible_append (visible_data r) (visible_data r) c listed
      have low : c.toNat < 128 := Nat.lt_of_lt_of_le range.2 (by decide)
      simpa using low
    rw [Python.compareDigest,ascii]
    simp
  unfold Request.python Python.WebhookVerifier.verify
  rw [parses]
  dsimp only
  rw [inTime]
  simp [Python.WebhookVerifier.checkSignature,signs,same,Ended.valid]

end

/-- The verifiers agree on a header that the signer built if and only if it has a nonce. -/
theorem sdks_agree_iff {r : Request} (meant : r.Meant) (platform : Rust.Platform) (python : Python.Interpreter) :
    r.Agree platform python ↔ r.nonceText ≠ "" := by
  constructor
  · intro agree empty
    have same := agree.goBytes
    rw [empty,data_bytes_empty] at same
    have lengths := congrArg List.length same
    have dot : (utf8 ".").length = 1 := by decide
    have stamp : utf8 (toString (r.timestamp : Int)) = utf8 (toString r.timestamp) := rfl
    have none_ : (utf8 "").length = 0 := rfl
    simp only [Go.signingPayload,stamp,List.length_append,dot,none_] at lengths
    omega
  · intro some_
    refine ⟨signer_accepts meant some_,go_accepts meant some_,rust_accepts meant some_ platform,
      python_accepts meant some_ python,go_bytes r.payload r.timestamp some_,?_,?_⟩
    · rw [rust_text platform r.payload r.timestamp some_]
      rfl
    · rw [python_text python r.payload meant.safe some_]
      rfl

/-- A build without overflow checks. -/
def release : Rust.Platform := ⟨false,fun _ => ""⟩

def cpython : Python.Interpreter := ⟨some 4300,by decide,fun _ => none⟩
def dotted : Request := ⟨"p",1,"s",some "a.b",1,300000⟩

theorem agree_dotted : dotted.Agree release cpython := by
  have meant : dotted.Meant :=
    ⟨by decide,by decide,⟨by decide,by decide,by decide,by decide⟩,by decide,by decide,by decide⟩
  exact (sdks_agree_iff meant release cpython).mpr (by decide)

def unnamed : Request := ⟨"p",1,"s",none,1,300000⟩

/-- The signer accepts its own header without a nonce, and the verifier for Go does not. -/
theorem unnamed_disagrees :
    unnamed.Meant ∧ verifyWebhookSignatureSync 1 (.string "p") (.string unnamed.header) "s" 300000 none none = true ∧
      unnamed.go = ⟨false,some "Invalid HMAC signature"⟩ ∧ ¬ unnamed.Agree release cpython := by
  have meant : unnamed.Meant :=
    ⟨by decide,by decide,⟨by decide,by decide,by decide,by decide⟩,by decide,by decide,by decide⟩
  have read : Go.parseSignatureHeader (utf8 unnamed.header) = .ok (1,utf8 unnamed.signature) := by decide +kernel
  have apart (same : utf8 unnamed.signature = Go.Verifier.sign ⟨utf8 "s",300000⟩ (utf8 "p") 1 (utf8 "")) : False :=
    absurd (HexText.toHex_injective (Sha256.utf8_injective same)) (by decide +kernel)
  have refused : unnamed.go = ⟨false,some "Invalid HMAC signature"⟩ := Go.Verify_mismatch read rfl List.not_mem_nil apart
  have parses : parseWebhookSignatureHeader (.string unnamed.header) =
      .ok ⟨1,"",(generateWebhookSignature "p" "s" 1 "").signature⟩ := parse_generated (by decide) meant.plain "p" "s"
  refine ⟨meant,?_,refused,?_⟩
  · exact sync_generated (by decide) meant.valid parses
  · intro agree
    have accepted := agree.goValid
    rw [refused] at accepted
    cases accepted

end StellarAlerts.SdkAgreement
