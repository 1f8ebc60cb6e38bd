import Mathlib.Data.List.Chain
import StellarAlerts.JsonDocuments
import StellarAlerts.PayloadTransformer

/-!
JSON documents as templates, with placeholders within their strings. Neither pass finds
anything in a document but the placeholders (`passes_document`), and what is written for one is read
as its string, whatever that string is (`documents_filled`).
-/
namespace StellarAlerts.LiquidDocuments
open IntegerText (isStrWhiteSpace digitValue)
open JsonDocuments JsonTexts Numbers PayloadTransformer
open StellarAlerts.Utf16Text (encode includes wellFormed)

/-- A part of a string: a character, an escape, or a placeholder. -/
inductive Part where
  | char (c : Char)
  | short (c : Char)
  | code (a b c d : Char)
  | hole (before path after : List Char)

def Part.template : Part → List Char
  | .char c => [c]
  | .short c => ['\\',c]
  | .code a b c d => ['\\','u',a,b,c,d]
  | .hole before path after => '{' :: '{' :: (before ++ (path ++ (after ++ ['}','}'])))

section Filled
variable (fill : String → String)

def Part.output : Part → List Char
  | .hole _ path _ => (fill (String.ofList path)).toList.flatMap quoteChar
  | part => part.template

def Part.units : Part → List Nat
  | .char c => Utf16Text.units c
  | .short c => [(shortEscape c).getD 0]
  | .code a b c d => [(([a,b,c,d].map fun c => (digitValue c).getD 0).foldl (fun code digit => code * 16 + digit) 0)]
  | .hole _ path _ => encode (fill (String.ofList path)).toList

abbrev Literal := List Part
def template (l : Literal) : List Char := l.flatMap Part.template
def output (l : Literal) : List Char := l.flatMap (Part.output fill)
def filled (l : Literal) : String := String.ofList (wellFormed (l.flatMap (Part.units fill)))

end Filled

/-- No tag opens within the text. -/
def Untagged (text : List Char) : Prop := List.IsChain (fun c d => c = '{' → d ≠ '%') text

/-- A path: not empty, on one line, without blanks around it, and no placeholder ends and no tag opens within it. -/
structure IsPath (path : List Char) : Prop where
  first : ∃ c rest, path = c :: rest ∧ isStrWhiteSpace c = false
  last : ∃ rest c, path = rest ++ [c] ∧ isStrWhiteSpace c = false
  line : ∀ c ∈ path, isLineTerminator c = false
  closes : List.IsChain (fun c d => c = '}' → d ≠ '}') path
  untagged : Untagged path

section Proper
variable (r : Runtime) (context : List (String × Json)) (fill : String → String)

/-- Escaped text without braces that open, or a placeholder whose path evaluates to a string. -/
def Part.Proper : Part → Prop
  | .char c => c ≠ '"' ∧ c ≠ '\\' ∧ c ≠ '{' ∧ 0x20 ≤ c.toNat
  | .short c => (shortEscape c).isSome = true
  | .code a b c d => ∀ digit ∈ [a,b,c,d], (digitValue digit).isSome = true
  | .hole before path after => (∀ c ∈ before ++ after, isStrWhiteSpace c = true) ∧ IsPath path ∧
      (before = [] → path.head? ≠ some '%') ∧ (after = [] → path.getLast? ≠ some '}') ∧
      evaluateLiquidExpression r context (String.ofList path) = some (.json (.string (fill (String.ofList path))))

def ProperLiteral (l : Literal) : Prop := ∀ part ∈ l, part.Proper r context fill

end Proper

section Passes
variable {M : Type} {find : List Char → Option (M × List Char)} {out : M → Option (List Char)}

/-- A pass writes the one text for the other, whatever follows. -/
def Passes (find : List Char → Option (M × List Char)) (out : M → Option (List Char)) (text written : List Char) : Prop :=
  ∀ rest, replaceAll find out (text ++ rest) = (replaceAll find out rest).map (written ++ ·)

theorem passes_nil : Passes find out [] [] := by
  intro rest
  cases is : replaceAll find out rest <;> simp [is]

theorem passes_append {a b a' b' : List Char} (first : Passes find out a a') (second : Passes find out b b') :
    Passes find out (a ++ b) (a' ++ b') := by
  intro rest
  rw [List.append_assoc,first,second]
  cases replaceAll find out rest <;> simp

theorem replaceAll_copy {c : Char} {rest : List Char} (nothing : find (c :: rest) = none) :
    replaceAll find out (c :: rest) = (replaceAll find out rest).map (c :: ·) := by
  rw [replaceAll,nothing]

/-- A pass that finds only what begins with a brace and a brace or percent sign. -/
structure Opens (find : List Char → Option (M × List Char)) : Prop where
  brace : ∀ c rest, c ≠ '{' → find (c :: rest) = none
  second : ∀ c rest, c ≠ '{' → c ≠ '%' → find ('{' :: c :: rest) = none

theorem passes_char (opens : Opens find) {c : Char} (plain : c ≠ '{') : Passes find out [c] [c] := by
  intro rest
  exact replaceAll_copy (opens.brace c rest plain)

theorem passes_plain (opens : Opens find) {word : List Char} (plain : ∀ c ∈ word, c ≠ '{') : Passes find out word word := by
  induction word with
  | nil => exact passes_nil
  | cons c rest ih =>
    exact passes_append (passes_char opens (plain c List.mem_cons_self)) (ih fun c' listed => plain c' (List.mem_cons_of_mem _ listed))

theorem passes_brace (opens : Opens find) {text written : List Char} (behind : Passes find out text written)
    (begins : ∃ c rest, text = c :: rest ∧ c ≠ '{' ∧ c ≠ '%') : Passes find out ('{' :: text) ('{' :: written) := by
  intro rest
  obtain ⟨c,more,rfl,notBrace,notPercent⟩ := begins
  have one := @replaceAll_copy M find out _ _ (opens.second c (more ++ rest) notBrace notPercent)
  rw [List.cons_append,List.cons_append,one,← List.cons_append,behind]
  cases replaceAll find out rest <;> rfl

section Documents
variable {L : Type} {write write' : L → List Char} {proper : L → Prop} {double : String → Number}

theorem plain_blank {blank : List Char} (is : Blank blank) : ∀ c ∈ blank, c ≠ '{' := by
  intro c listed
  rcases is c listed with rfl | rfl | rfl | rfl <;> decide

theorem plain_word {w : List Char} (letters : ∀ c ∈ w, isWordChar c = true) : ∀ c ∈ w, c ≠ '{' := by
  rintro c listed rfl
  exact absurd (letters _ listed) (by decide)

theorem begins_members {blank : List Char} {members : Members L} (isBlank : Blank blank) (is : members.Proper double proper) :
    ∃ c rest, blank ++ (members.text write ++ ['}']) = c :: rest ∧ c ≠ '{' ∧ c ≠ '%' := by
  have blanks : ∀ {blank : List Char}, Blank blank → ∀ {behind : List Char}, (∃ c rest, behind = c :: rest ∧ c ≠ '{' ∧ c ≠ '%') →
      ∃ c rest, blank ++ behind = c :: rest ∧ c ≠ '{' ∧ c ≠ '%' := by
    intro blank isBlank behind begins
    cases blank with
    | nil => exact begins
    | cons c rest =>
      refine ⟨c,rest ++ behind,rfl,?_⟩
      rcases isBlank c List.mem_cons_self with rfl | rfl | rfl | rfl <;> decide
  refine blanks isBlank ?_
  cases members with
  | nil => exact ⟨'}',[],rfl,by decide⟩
  | cons before key after t rest =>
    rw [Members.text,List.append_assoc]
    exact blanks is.1 ⟨'"',_,rfl,by decide⟩

theorem passes_quoted (opens : Opens find) (literals : ∀ l, proper l → Passes find out (write l) (write' l)) {l : L} (is : proper l) :
    Passes find out (quoted write l) (quoted write' l) :=
  passes_append (a := ['"']) (passes_char opens (by decide)) (passes_append (literals l is) (passes_char opens (by decide)))

mutual

theorem passes_document (opens : Opens find) (literals : ∀ l, proper l → Passes find out (write l) (write' l)) (t : Document L)
    (is : t.Proper double proper) : Passes find out (t.text write) (t.text write') := by
  cases t with
  | word w => exact passes_plain opens (plain_word is.1)
  | literal l => exact passes_quoted opens literals is
  | spaced before t after =>
    exact passes_append (passes_plain opens (plain_blank is.1))
      (passes_append (passes_document opens literals t is.2.1) (passes_plain opens (plain_blank is.2.2)))
  | array blank items =>
    have inner : Passes find out (items.text write) (items.text write') := by
      cases items with
      | nil => exact passes_nil
      | cons t rest => exact passes_append (passes_document opens literals t is.2.1) (passes_items opens literals rest is.2.2)
    exact passes_append (a := ['[']) (passes_char opens (by decide)) (passes_append (passes_plain opens (plain_blank is.1))
      (passes_append inner (passes_char opens (by decide))))
  | object blank members =>
    have inner : Passes find out (members.text write) (members.text write') := by
      cases members with
      | nil => exact passes_nil
      | cons before key after t rest =>
        obtain ⟨-,isBefore,isKey,isAfter,isValue,others⟩ := is
        exact passes_append (passes_plain opens (plain_blank isBefore)) (passes_append (passes_quoted opens literals isKey)
          (passes_append (passes_plain opens (plain_blank isAfter)) (passes_append (a := [':']) (passes_char opens (by decide))
            (passes_append (passes_document opens literals t isValue) (passes_members opens literals rest others)))))
    exact passes_brace opens (passes_append (passes_plain opens (plain_blank is.1)) (passes_append inner (passes_char opens (by decide))))
      (begins_members is.1 is.2)

theorem passes_items (opens : Opens find) (literals : ∀ l, proper l → Passes find out (write l) (write' l)) (items : Items L)
    (is : items.Proper double proper) : Passes find out (items.more write) (items.more write') := by
  cases items with
  | nil => exact passes_nil
  | cons t rest =>
    exact passes_append (a := [',']) (passes_char opens (by decide))
      (passes_append (passes_document opens literals t is.1) (passes_items opens literals rest is.2))

theorem passes_members (opens : Opens find) (literals : ∀ l, proper l → Passes find out (write l) (write' l)) (members : Members L)
    (is : members.Proper double proper) : Passes find out (members.more write) (members.more write') := by
  cases members with
  | nil => exact passes_nil
  | cons before key after t rest =>
    obtain ⟨isBefore,isKey,isAfter,isValue,others⟩ := is
    exact passes_append (a := [',']) (passes_char opens (by decide)) (passes_append (passes_plain opens (plain_blank isBefore))
      (passes_append (passes_quoted opens literals isKey) (passes_append (passes_plain opens (plain_blank isAfter))
        (passes_append (a := [':']) (passes_char opens (by decide))
          (passes_append (passes_document opens literals t isValue) (passes_members opens literals rest others))))))

end

end Documents

theorem passes_found {c : Char} {text written : List Char} {found : M} (finds : ∀ rest, find (c :: (text ++ rest)) = some (found,rest))
    (writes : out found = some written) : Passes find out (c :: text) written := by
  intro rest
  have shorter : rest.length ≤ (text ++ rest).length := by simp
  rw [List.cons_append,replaceAll,finds]
  simp only [if_pos shorter,writes]
  cases replaceAll find out rest <;> rfl

end Passes

theorem opens_findInterpolation : Opens findInterpolation where
  brace := by
    intro c rest other
    unfold findInterpolation
    split
    next is => exact absurd (List.cons.inj is).1 other
    next => rfl
  second := by
    intro c rest other _
    unfold findInterpolation
    split
    next is => exact absurd (List.cons.inj (List.cons.inj is).2).1 other
    next => rfl

variable {c : Char}

theorem findConditional_brace (rest : List Char) (other : c ≠ '{') : findConditional (c :: rest) = none := by
  unfold findConditional
  split
  next is => exact absurd (List.cons.inj is).1 other
  next => rfl

theorem findConditional_second (rest : List Char) (other : c ≠ '%') : findConditional ('{' :: c :: rest) = none := by
  unfold findConditional
  split
  next is => exact absurd (List.cons.inj (List.cons.inj is).2).1 other
  next => rfl

theorem opens_findConditional : Opens findConditional where
  brace := fun _ rest other => findConditional_brace rest other
  second := fun _ rest _ other => findConditional_second rest other

theorem passes_untagged {out : Conditional → Option (List Char)} {text : List Char} (untagged : Untagged text)
    (ends : text.getLast? ≠ some '{') : Passes findConditional out text text := by
  induction text with
  | nil => exact passes_nil
  | cons c rest ih =>
    cases rest with
    | nil => exact passes_char opens_findConditional fun is => ends (by rw [is]; rfl)
    | cons d more =>
      obtain ⟨pair,others⟩ := List.isChain_cons_cons.mp untagged
      have behind : Passes findConditional out (d :: more) (d :: more) := ih others (by rwa [List.getLast?_cons_cons] at ends)
      intro after
      have nothing : findConditional (c :: (d :: more ++ after)) = none := by
        by_cases brace : c = '{'
        · rw [brace,List.cons_append]
          exact findConditional_second _ (pair brace)
        · exact findConditional_brace _ brace
      rw [List.cons_append,replaceAll_copy nothing,behind]
      cases replaceAll findConditional out after <;> rfl

theorem blank_char (blank : isStrWhiteSpace c = true) : c ≠ '{' ∧ c ≠ '}' ∧ c ≠ '%' := by
  refine ⟨?_,?_,?_⟩
  all_goals
    rintro rfl
    exact absurd blank (by decide)

theorem untagged_blank {blank : List Char} (is : ∀ c ∈ blank, isStrWhiteSpace c = true) : Untagged blank := by
  induction blank with
  | nil => exact .nil
  | cons c rest ih =>
    refine List.isChain_cons.mpr ⟨fun d _ brace => absurd brace (blank_char (is c List.mem_cons_self)).1,?_⟩
    exact ih fun c' listed => is c' (List.mem_cons_of_mem _ listed)

theorem begins_after {after : List Char} (blank : ∀ c ∈ after, isStrWhiteSpace c = true) :
    ∃ c rest, after ++ ['}','}'] = c :: rest ∧ c ≠ '%' := by
  cases after with
  | nil => exact ⟨'}',['}'],rfl,by decide⟩
  | cons c rest => exact ⟨c,rest ++ ['}','}'],rfl,(blank_char (blank c List.mem_cons_self)).2.2⟩

section Holes
variable {before path after : List Char}

theorem untagged_hole (blank : ∀ c ∈ before ++ after, isStrWhiteSpace c = true) (is : IsPath path)
    (notTag : before = [] → path.head? ≠ some '%') : Untagged (Part.hole before path after).template := by
  have blankBefore : ∀ c ∈ before, isStrWhiteSpace c = true := fun c listed => blank c (List.mem_append_left _ listed)
  have blankAfter : ∀ c ∈ after, isStrWhiteSpace c = true := fun c listed => blank c (List.mem_append_right _ listed)
  obtain ⟨first,more,begins,-⟩ := is.first
  have ending : Untagged (after ++ ['}','}']) := by
    refine List.isChain_append.mpr ⟨untagged_blank blankAfter,?_,?_⟩
    · exact List.isChain_cons_cons.mpr ⟨fun brace => absurd brace (by decide),.singleton _⟩
    · intro c last d _ brace
      exact absurd brace (blank_char (blankAfter c (List.mem_of_getLast? last))).1
  have inner : Untagged (path ++ (after ++ ['}','}'])) := by
    refine List.isChain_append.mpr ⟨is.untagged,ending,?_⟩
    intro c _ d head _
    obtain ⟨e,rest,texts,notPercent⟩ := begins_after blankAfter
    rw [texts] at head
    cases head
    exact notPercent
  have whole : Untagged (before ++ (path ++ (after ++ ['}','}']))) := by
    refine List.isChain_append.mpr ⟨untagged_blank blankBefore,inner,?_⟩
    intro c last d _ brace
    exact absurd brace (blank_char (blankBefore c (List.mem_of_getLast? last))).1
  have head : ∀ d ∈ (before ++ (path ++ (after ++ ['}','}']))).head?, d ≠ '%' := by
    intro d isHead
    cases before with
    | nil =>
      rintro rfl
      refine notTag rfl ?_
      rw [begins] at isHead ⊢
      exact isHead
    | cons b rest =>
      obtain rfl : b = d := Option.some.inj isHead
      exact (blank_char (blankBefore b List.mem_cons_self)).2.2
  refine List.isChain_cons_cons.mpr ⟨fun _ => by decide,?_⟩
  exact List.isChain_cons.mpr ⟨fun d isHead _ => head d isHead,whole⟩

theorem blanksThen_within {rest : List Char} (blank : ∀ c ∈ after, isStrWhiteSpace c = true) (some_ : path ≠ [])
    (last : ∀ c ∈ path.getLast?, isStrWhiteSpace c = false) (closes : List.IsChain (fun c d => c = '}' → d ≠ '}') path)
    (ends : after = [] → path.getLast? ≠ some '}') : blanksThen ['}','}'] (path ++ (after ++ '}' :: '}' :: rest)) = none := by
  induction path with
  | nil => exact absurd rfl some_
  | cons c more ih =>
    by_cases isBlank : isStrWhiteSpace c = true
    · -- a blank is not the last character
      have others : more ≠ [] := by
        rintro rfl
        rw [last c rfl] at isBlank
        cases isBlank
      have sameLast : (c :: more).getLast? = more.getLast? := by
        obtain ⟨d,tail,rfl⟩ := List.exists_cons_of_ne_nil others
        rw [List.getLast?_cons_cons]
      rw [sameLast] at last ends
      have skipped := ih others last closes.of_cons ends
      rw [blanksThen,List.cons_append,List.dropWhile_cons_of_pos isBlank]
      exact skipped
    · rw [blanksThen,List.cons_append,List.dropWhile_cons_of_neg isBlank]
      by_cases brace : c = '}'
      · subst brace
        cases more with
        | nil =>
          cases after with
          | nil => exact absurd rfl (ends rfl)
          | cons b others =>
            have notBrace : b ≠ '}' := (blank_char (blank b List.mem_cons_self)).2.1
            simp [List.dropPrefix?,notBrace]
        | cons d tail =>
          have notBrace : d ≠ '}' := (List.isChain_cons_cons.mp closes).1 rfl
          simp [List.dropPrefix?,notBrace]
      · simp [List.dropPrefix?,brace]

theorem lazily_path {rest : List Char} (blank : ∀ c ∈ after, isStrWhiteSpace c = true)
    (last : ∀ c ∈ path.getLast?, isStrWhiteSpace c = false) (line : ∀ c ∈ path, isLineTerminator c = false)
    (closes : List.IsChain (fun c d => c = '}' → d ≠ '}') path) (ends : after = [] → path.getLast? ≠ some '}') :
    lazily ['}','}'] (path ++ (after ++ '}' :: '}' :: rest)) = some (path,rest) := by
  induction path with
  | nil =>
    have found : blanksThen ['}','}'] (after ++ '}' :: '}' :: rest) = some rest := by
      have stops : isStrWhiteSpace '}' ≠ true := by decide
      rw [blanksThen,List.dropWhile_append_of_pos blank,List.dropWhile_cons_of_neg stops]
      simp [List.dropPrefix?]
    cases after with
    | nil =>
      rw [List.nil_append] at found
      rw [List.nil_append,List.nil_append,lazily,found]
    | cons b others =>
      rw [List.cons_append] at found
      rw [List.nil_append,List.cons_append,lazily,found]
  | cons c more ih =>
    have within := @blanksThen_within (c :: more) after rest blank (by simp) last closes ends
    rw [List.cons_append] at within
    have captured : lazily ['}','}'] (more ++ (after ++ '}' :: '}' :: rest)) = some (more,rest) := by
      refine ih ?_ (fun c' listed => line c' (List.mem_cons_of_mem _ listed)) closes.of_cons ?_
      · intro d isLast
        cases more with
        | nil => cases isLast
        | cons e tail => exact last d (by rwa [List.getLast?_cons_cons])
      · intro none_ isLast
        cases more with
        | nil => cases isLast
        | cons e tail => exact ends none_ (by rwa [List.getLast?_cons_cons])
    rw [List.cons_append,lazily,within,line c List.mem_cons_self,captured]
    rfl

theorem captured_path {rest : List Char} (blank : ∀ c ∈ before ++ after, isStrWhiteSpace c = true) (is : IsPath path)
    (ends : after = [] → path.getLast? ≠ some '}') :
    captured ['}','}'] (before ++ (path ++ (after ++ '}' :: '}' :: rest))) = some (path,rest) := by
  have blankBefore : ∀ c ∈ before, isStrWhiteSpace c = true := fun c listed => blank c (List.mem_append_left _ listed)
  have blankAfter : ∀ c ∈ after, isStrWhiteSpace c = true := fun c listed => blank c (List.mem_append_right _ listed)
  obtain ⟨first,more,begins,notBlank⟩ := is.first
  obtain ⟨init,last,finishes,lastNotBlank⟩ := is.last
  have taken : (before ++ (path ++ (after ++ '}' :: '}' :: rest))).takeWhile isStrWhiteSpace = before := by
    rw [List.takeWhile_append_of_pos blankBefore,begins,List.cons_append,List.takeWhile_cons_of_neg (by simp [notBlank]),List.append_nil]
  have lastIs : ∀ c ∈ path.getLast?, isStrWhiteSpace c = false := by
    intro c isLast
    rw [finishes,List.getLast?_concat] at isLast
    cases isLast
    exact lastNotBlank
  have found := @lazily_path path after rest blankAfter lastIs is.line is.closes ends
  simp only [captured,taken]
  rw [List.range_succ,List.reverse_append,List.reverse_singleton,List.singleton_append,List.findSome?_cons,List.drop_left,found]

end Holes

section Literals
variable {r : Runtime} {context : List (String × Json)} {fill : String → String} {double : String → Number}

variable {c : Char}

theorem hexChar_plain (hex : (digitValue c).isSome = true) : c ≠ '{' := by
  rintro rfl
  exact absurd hex (by decide)

theorem shortEscape_plain (short : (shortEscape c).isSome = true) : c ≠ '{' := by
  rintro rfl
  exact absurd short (by decide)

variable {part : Part}

theorem plain_fixed (is : part.Proper r context fill) (fixed : ∀ before path after, part ≠ .hole before path after) :
    ∀ c ∈ part.template, c ≠ '{' := by
  cases part with
  | char c => simpa [Part.template] using is.2.2.1
  | short c => simpa [Part.template] using shortEscape_plain is
  | code a b c d =>
    have plain : ∀ digit ∈ [a,b,c,d], digit ≠ '{' := fun digit listed => hexChar_plain (is digit listed)
    simpa [Part.template] using plain
  | hole before path after => exact absurd rfl (fixed before path after)

theorem passes_conditional {out : Conditional → Option (List Char)} (is : part.Proper r context fill) :
    Passes findConditional out part.template part.template := by
  cases part with
  | hole before path after =>
    obtain ⟨blank,isPath,notTag,-,-⟩ := is
    refine passes_untagged (untagged_hole blank isPath notTag) ?_
    have texts : (Part.hole before path after).template = ('{' :: '{' :: (before ++ (path ++ (after ++ ['}'])))) ++ ['}'] := by
      simp [Part.template]
    rw [texts,List.getLast?_concat]
    decide
  | char c => exact passes_plain opens_findConditional (plain_fixed is (by simp))
  | short c => exact passes_plain opens_findConditional (plain_fixed is (by simp))
  | code a b c d => exact passes_plain opens_findConditional (plain_fixed is (by simp))

theorem interpolated_string (text : String) :
    (interpolated r (.json (.string text))).map String.toList = some (text.toList.flatMap quoteChar) := by
  simp [interpolated,quote]

/-- A pass that writes for an expression what it evaluates to. -/
def Writes (r : Runtime) (context : List (String × Json)) (out : List Char → Option (List Char)) : Prop :=
  ∀ path value, evaluateLiquidExpression r context (String.ofList path) = some value →
    out path = (interpolated r value).map String.toList

theorem passes_interpolation {out : List Char → Option (List Char)} (writes : Writes r context out)
    (is : part.Proper r context fill) : Passes findInterpolation out part.template (part.output fill) := by
  cases part with
  | hole before path after =>
    obtain ⟨blank,isPath,-,ends,evaluates⟩ := is
    refine @passes_found _ _ _ '{' ('{' :: (before ++ (path ++ (after ++ ['}','}'])))) _ path ?_ ?_
    · intro rest
      have texts : (before ++ (path ++ (after ++ ['}','}']))) ++ rest = before ++ (path ++ (after ++ '}' :: '}' :: rest)) := by simp
      rw [List.cons_append,texts]
      exact captured_path blank isPath ends
    · rw [writes path _ evaluates,interpolated_string]
      rfl
  | char c => exact passes_plain opens_findInterpolation (plain_fixed is (by simp))
  | short c => exact passes_plain opens_findInterpolation (plain_fixed is (by simp))
  | code a b c d => exact passes_plain opens_findInterpolation (plain_fixed is (by simp))

theorem passes_literal {M : Type} {find : List Char → Option (M × List Char)} {out : M → Option (List Char)}
    {written : Part → List Char} (parts : ∀ part, part.Proper r context fill → Passes find out part.template (written part))
    {l : Literal} (is : ProperLiteral r context fill l) : Passes find out (template l) (l.flatMap written) := by
  induction l with
  | nil => exact passes_nil
  | cons part rest ih =>
    exact passes_append (parts part (is part List.mem_cons_self)) (ih fun part' listed => is part' (List.mem_cons_of_mem _ listed))

theorem feed_escape {a b d : Char} (hex : ∀ digit ∈ [a,b,c,d], (digitValue digit).isSome = true) (units : List Nat)
    (p : Parser) :
    ['\\','u',a,b,c,d].foldlM (Reader.feed double) ⟨.inString units,p⟩ =
      some ⟨.inString (units ++ (Part.code a b c d).units fill),p⟩ := by
  obtain ⟨first,isFirst⟩ := Option.isSome_iff_exists.mp (hex a (by simp))
  obtain ⟨second,isSecond⟩ := Option.isSome_iff_exists.mp (hex b (by simp))
  obtain ⟨third,isThird⟩ := Option.isSome_iff_exists.mp (hex c (by simp))
  obtain ⟨fourth,isFourth⟩ := Option.isSome_iff_exists.mp (hex d (by simp))
  have start : ['\\','u'].foldlM (Reader.feed double) ⟨.inString units,p⟩ = some ⟨.code units [],p⟩ := rfl
  have one : Reader.feed double ⟨.code units [],p⟩ a = some ⟨.code units [first],p⟩ := feed_silent (by simp [Lexer.next,isFirst]) p
  have two : Reader.feed double ⟨.code units [first],p⟩ b = some ⟨.code units [first,second],p⟩ :=
    feed_silent (by simp [Lexer.next,isSecond]) p
  have three : Reader.feed double ⟨.code units [first,second],p⟩ c = some ⟨.code units [first,second,third],p⟩ :=
    feed_silent (by simp [Lexer.next,isThird]) p
  have four : Reader.feed double ⟨.code units [first,second,third],p⟩ d =
      some ⟨.inString (units ++ [((first * 16 + second) * 16 + third) * 16 + fourth]),p⟩ :=
    feed_silent (by simp [Lexer.next,isFourth]) p
  have code : (Part.code a b c d).units fill = [((first * 16 + second) * 16 + third) * 16 + fourth] := by
    simp [Part.units,isFirst,isSecond,isThird,isFourth]
  have digits : [a,b,c,d].foldlM (Reader.feed double) ⟨.code units [],p⟩ =
      some ⟨.inString (units ++ [((first * 16 + second) * 16 + third) * 16 + fourth]),p⟩ := by
    simp only [List.foldlM_cons,List.foldlM_nil,one,two,three,four,Option.bind_eq_bind,Option.bind_some]
    rfl
  rw [code]
  show (['\\','u'] ++ [a,b,c,d]).foldlM (Reader.feed double) ⟨.inString units,p⟩ = _
  rw [feed_append,start,Option.bind_some,digits]

theorem feed_part (is : part.Proper r context fill) (units : List Nat) (p : Parser) :
    (part.output fill).foldlM (Reader.feed double) ⟨.inString units,p⟩ = some ⟨.inString (units ++ part.units fill),p⟩ := by
  cases part with
  | char c =>
    obtain ⟨notQuote,notBackslash,-,printable⟩ := is
    have plain : Lexer.next double (.inString units) c = some (.inString (units ++ Utf16Text.units c),[]) := by
      simp [Lexer.next,notQuote,notBackslash,Nat.not_lt.mpr printable]
    rw [Part.output,Part.template,List.foldlM_cons,feed_silent plain]
    · rfl
    · simp
  | short c =>
    obtain ⟨unit,isUnit⟩ := Option.isSome_iff_exists.mp is
    have notCode : c ≠ 'u' := by
      rintro rfl
      cases isUnit
    have escapes : Reader.feed double ⟨.inString units,p⟩ '\\' = some ⟨.escaped units,p⟩ := rfl
    have ends : Reader.feed double ⟨.escaped units,p⟩ c = some ⟨.inString (units ++ [unit]),p⟩ :=
      feed_silent (by simp [Lexer.next,notCode,isUnit]) p
    show ['\\',c].foldlM (Reader.feed double) ⟨.inString units,p⟩ = some ⟨.inString (units ++ [(shortEscape c).getD 0]),p⟩
    rw [isUnit,Option.getD_some]
    simp only [List.foldlM_cons,List.foldlM_nil,escapes,ends,Option.bind_eq_bind,Option.bind_some]
    rfl
  | code a b c d => exact feed_escape is units p
  | hole before path after => exact feed_quoted _ units p

theorem reads_literal {l : Literal} (is : ProperLiteral r context fill l) : Reads double (output fill) (filled fill) l := by
  have fed : ∀ units p, (output fill l).foldlM (Reader.feed double) ⟨.inString units,p⟩ =
      some ⟨.inString (units ++ l.flatMap (Part.units fill)),p⟩ := by
    induction l with
    | nil => simp [output]
    | cons part rest ih =>
      intro units p
      have others := ih fun part' listed => is part' (List.mem_cons_of_mem _ listed)
      rw [output,List.flatMap_cons,feed_append,feed_part (is part List.mem_cons_self),Option.bind_some,← output,others,
        List.append_assoc,List.flatMap_cons]
  exact ⟨l.flatMap (Part.units fill),rfl,fun p => fed [] p⟩

theorem replaceAll_whole {M : Type} {find : List Char → Option (M × List Char)} {out : M → Option (List Char)}
    {text written : List Char} (passes : Passes find out text written) : replaceAll find out text = some written := by
  have whole := passes []
  rw [List.append_nil,replaceAll,Option.map_some,List.append_nil] at whole
  exact whole

theorem evaluated_document {doc : Document Literal} (proper : doc.Proper double (ProperLiteral r context fill)) :
    evaluateBuiltinLiquid r context (String.ofList (doc.text template)) = some (String.ofList (doc.text (output fill))) := by
  have first : ∀ out, replaceAll findConditional out (doc.text template) = some (doc.text template) := by
    intro out
    refine replaceAll_whole (passes_document opens_findConditional ?_ doc proper)
    exact fun l is => passes_literal (fun part isPart => passes_conditional isPart) is
  have second : ∀ out, Writes r context out → replaceAll findInterpolation out (doc.text template) = some (doc.text (output fill)) := by
    intro out writes
    refine replaceAll_whole (passes_document opens_findInterpolation ?_ doc proper)
    exact fun l is => passes_literal (fun part isPart => passes_interpolation writes isPart) is
  rw [evaluateBuiltinLiquid,String.toList_ofList,first]
  simp only [Option.bind_eq_bind,Option.bind_some]
  rw [second]
  · rfl
  · intro path value evaluates
    simp only [evaluates,Option.bind_some]
    cases interpolated r value <;> rfl

end Literals

/-! One member, and a memo with quotes and tags of its own. -/

def textsOnly : Runtime where
  toUpperCase := String.map Char.toUpper
  toLowerCase := String.map Char.toLower
  toNumber := fun _ => .nan
  text := fun value => match value with
    | .json (.string text) => some text
    | _ => none
  stringify := fun _ => "null"
  split := fun text _ => [text]
  inherits := fun _ _ => false

def sampleMemo : String := String.ofList ['"',',','\\','{','{','m','}','}','{','%','\n']
def sampleContext : List (String × Json) := [("memo",.string sampleMemo)]
def sampleDocument : Document Literal :=
  .object [] (.cons [] [.char 't'] [] (.spaced [' '] (.literal [.char '>',.hole [' '] ['m','e','m','o'] [' '],.char '!']) []) .nil)

theorem evaluates_memo : evaluateLiquidExpression textsOnly sampleContext (String.ofList ['m','e','m','o']) =
    some (.json (.string sampleMemo)) := by
  have parts : ((String.ofList ['m','e','m','o']).toList.splitOn '|').map (fun part => String.ofList (IntegerText.trim part)) = ["memo"] := by
    decide
  have noIndex : replaceAll findIndex (fun digits => some ('.' :: digits)) ['m','e','m','o'] = some ['m','e','m','o'] := by
    simp [replaceAll,findIndex]
  have noPrototype : (includes "memo" "__proto__" || includes "memo" "constructor" || includes "memo" "prototype") = false := by decide
  have resolved : resolvePath textsOnly sampleContext "memo" = .json (.string sampleMemo) := by
    have clean : IntegerText.trim "memo".toList = ['m','e','m','o'] := by decide
    have segments : ((['m','e','m','o'].splitOn '.').filter (· ≠ [])).map String.ofList = ["memo"] := by decide
    have text : String.ofList ['m','e','m','o'] = "memo" := by decide
    have notEmpty : "memo" ≠ "" := by decide
    unfold resolvePath
    rw [if_neg notEmpty,clean]
    show (if (includes (String.ofList ['m','e','m','o']) "__proto__" || includes (String.ofList ['m','e','m','o']) "constructor" ||
      includes (String.ofList ['m','e','m','o']) "prototype") = true then JsValue.undefined
      else ((((replaceAll findIndex (fun digits => some ('.' :: digits)) ['m','e','m','o']).getD ['m','e','m','o']).splitOn '.').filter
        (· ≠ [])).map String.ofList |>.foldl (step textsOnly) (.json (.object sampleContext))) = _
    rw [text,noPrototype,noIndex,Option.getD_some,segments]
    rfl
  simp only [evaluateLiquidExpression,parts]
  show some (resolvePath textsOnly sampleContext "memo") = _
  rw [resolved]

theorem path_memo : IsPath ['m','e','m','o'] where
  first := ⟨'m',['e','m','o'],rfl,by decide⟩
  last := ⟨['m','e','m'],'o',rfl,by decide⟩
  line := by
    intro c listed
    simp only [List.mem_cons,List.not_mem_nil,or_false] at listed
    rcases listed with rfl | rfl | rfl | rfl <;> decide
  closes := by decide
  untagged := by
    unfold Untagged
    decide

theorem sampleDocument_proper : sampleDocument.Proper (fun _ => .nan) (ProperLiteral textsOnly sampleContext fun _ => sampleMemo) := by
  have key : ProperLiteral textsOnly sampleContext (fun _ => sampleMemo) [.char 't'] := by
    intro part listed
    obtain rfl := List.mem_singleton.mp listed
    exact ⟨by decide,by decide,by decide,by decide⟩
  have spaces : ∀ c ∈ [' '] ++ [' '], isStrWhiteSpace c = true := by
    intro c listed
    simp only [List.cons_append,List.nil_append,List.mem_cons,List.not_mem_nil,or_false,or_self] at listed
    subst listed
    decide
  have value : ProperLiteral textsOnly sampleContext (fun _ => sampleMemo) [.char '>',.hole [' '] ['m','e','m','o'] [' '],.char '!'] := by
    intro part listed
    simp only [List.mem_cons,List.not_mem_nil,or_false] at listed
    rcases listed with rfl | rfl | rfl
    · exact ⟨by decide,by decide,by decide,by decide⟩
    · exact ⟨spaces,path_memo,by decide,by decide,evaluates_memo⟩
    · exact ⟨by decide,by decide,by decide,by decide⟩
  have blank : Blank [' '] := by
    intro c listed
    exact .inl (List.mem_singleton.mp listed)
  have none_ : Blank [] := by
    intro c listed
    cases listed
  exact ⟨none_,none_,key,none_,⟨blank,value,none_⟩,trivial⟩

/-- The document of a template is the document with every placeholder replaced by its string. -/
theorem documents_filled (r : Runtime) (context : List (String × Json)) (fill : String → String) (double : String → Number)
    (doc : Document Literal) (proper : doc.Proper double (ProperLiteral r context fill)) :
    ∃ text, evaluateBuiltinLiquid r context (String.ofList (doc.text template)) = some text ∧
      parse double text = some (doc.value double (filled fill)) :=
  ⟨_,evaluated_document proper,parse_document doc (doc.proper_imp (fun _ is => reads_literal is) proper)⟩

theorem documents_filled_memo : ∃ text, evaluateBuiltinLiquid textsOnly sampleContext (String.ofList (sampleDocument.text template)) =
      some text ∧
    parse (fun _ => .nan) text = some (sampleDocument.value (fun _ => .nan) (filled fun _ => sampleMemo)) :=
  documents_filled textsOnly sampleContext (fun _ => sampleMemo) (fun _ => .nan) sampleDocument sampleDocument_proper

end StellarAlerts.LiquidDocuments
