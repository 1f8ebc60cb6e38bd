import StellarAlerts.ChecksumTampering
import StellarAlerts.DateTexts
import StellarAlerts.SeparatedText

/-!
Which payments `computePayloadHash` tells apart. A payment has its hash to itself where
no text holds a bar and neither an issuer nor a memo can be taken for a missing one
(`hash_unique_iff`).
-/
namespace StellarAlerts.ChecksumPayloads
open ChecksumChain
open ChecksumTampering (text_of_hash)
open DateTexts (Date toISOString)
open SeparatedText Sha256

/-- A payment as it is handed to `computePayloadHash`, with its time of receipt; the amount is the text that `String` makes of it. -/
structure Payment where
  id : String
  walletId : String
  txHash : String
  fromAddress : String
  amount : String
  asset : String
  assetIssuer : Option String
  memo : Option String
  receivedAt : Date
deriving DecidableEq

def Payment.chainable (p : Payment) : ChainablePayment :=
  ⟨p.id,p.txHash,p.walletId,p.fromAddress,p.amount,p.asset,p.assetIssuer,p.memo,toISOString p.receivedAt⟩

/-- The fields as they are joined. -/
def words (p : Payment) : List String :=
  [p.id,p.walletId,p.txHash,p.fromAddress,p.amount,p.asset,p.assetIssuer.getD "N/A",p.memo.getD "N/A",
    toISOString p.receivedAt]

def canonical (p : Payment) : String := "|".intercalate (words p)
theorem hash_of_canonical (p : Payment) : computePayloadHash p.chainable = sha256Hex (canonical p) := rfl

def HashUnique (p : Payment) : Prop :=
  ∀ other, other ≠ p → CollisionFree [utf8 (canonical p),utf8 (canonical other)] →
    computePayloadHash other.chainable ≠ computePayloadHash p.chainable

/-- The text is without a bar. -/
def Plain (text : String) : Prop := '|' ∉ text.toList

instance (text : String) : Decidable (Plain text) := inferInstanceAs (Decidable ('|' ∉ text.toList))

/-- The fields that are always there are without a bar. -/
def PlainTexts (p : Payment) : Prop :=
  Plain p.id ∧ Plain p.walletId ∧ Plain p.txHash ∧ Plain p.fromAddress ∧ Plain p.amount ∧ Plain p.asset

/-- A field that is there, without a bar, and not with the text of a missing one. -/
def Definite (field : Option String) : Prop := ∃ text, field = some text ∧ Plain text ∧ text ≠ "N/A"

/-- A field that is missing, or is there as above. -/
def Readable (field : Option String) : Prop := field = none ∨ Definite field

theorem toISOString_plain (t : Date) : Plain (toISOString t) := by
  have digits_plain : ∀ width n, '|' ∉ DateTexts.digits width n := by
    intro width n listed
    obtain ⟨d,small,same⟩ := DateTexts.digit_mem listed
    have apart : ∀ d < 10, '|' ≠ DateTexts.digit d := by decide
    exact apart d small same
  have year_plain : ∀ year, '|' ∉ DateTexts.yearText year := by
    intro year
    unfold DateTexts.yearText
    by_cases short : 0 ≤ year ∧ year ≤ 9999
    · rw [if_pos short]
      exact digits_plain _ _
    · rw [if_neg short]
      by_cases negative : year < 0
      · simp [negative,digits_plain]
      · simp [negative,digits_plain]
  simp [Plain,toISOString,DateTexts.isoText,digits_plain,year_plain]

theorem toISOString_injective {t u : Date} (same : toISOString t = toISOString u) : t = u := by
  have read := congrArg DateTexts.readIso same
  simpa only [DateTexts.readIso_toISOString,Option.some.injEq] using read

theorem canonical_toList (p : Payment) :
    (canonical p).toList = ['|'].intercalate ((words p).map String.toList) := by
  rw [canonical,String.toList_intercalate]
  rfl

variable {p : Payment}

theorem words_of_canonical {other : Payment} (plain : ∀ word ∈ words p, Plain word) (same : canonical other = canonical p) :
    words other = words p := by
  have lists := congrArg String.toList same
  rw [canonical_toList,canonical_toList] at lists
  have read := words_of_intercalate (by
    intro word listed
    obtain ⟨text,member,rfl⟩ := List.mem_map.mp listed
    exact plain text member) (by simp [words]) lists
  exact List.map_injective_iff.mpr (fun _ _ => String.toList_injective) read

theorem plain_words (texts : PlainTexts p) (issuer : Readable p.assetIssuer) (memo : Readable p.memo) :
    ∀ word ∈ words p, Plain word := by
  have missing : Plain "N/A" := by decide
  have optional : ∀ field : Option String, Readable field → Plain (field.getD "N/A") := by
    intro field readable
    rcases readable with rfl | ⟨text,rfl,plain,-⟩
    · exact missing
    · exact plain
  obtain ⟨id,walletId,txHash,fromAddress,amount,asset⟩ := texts
  simp only [words,List.forall_mem_cons]
  exact ⟨id,walletId,txHash,fromAddress,amount,asset,optional _ issuer,optional _ memo,toISOString_plain _,by simp⟩

theorem definite_inj {a b : Option String} (definite : Definite a) (same : b.getD "N/A" = a.getD "N/A") : b = a := by
  obtain ⟨text,rfl,-,other⟩ := definite
  cases b with
  | none => exact absurd same.symm other
  | some found => exact congrArg some same

theorem readable_inj {a b : Option String} (readableA : Readable a) (readableB : Readable b)
    (same : b.getD "N/A" = a.getD "N/A") : b = a := by
  rcases readableA with rfl | definite
  · rcases readableB with rfl | definite
    · rfl
    · exact (definite_inj definite same.symm).symm
  · exact definite_inj definite same

theorem eq_of_words {other : Payment} (same : words other = words p)
    (issuer : other.assetIssuer.getD "N/A" = p.assetIssuer.getD "N/A" → other.assetIssuer = p.assetIssuer)
    (memo : other.memo.getD "N/A" = p.memo.getD "N/A" → other.memo = p.memo) : other = p := by
  simp only [words,List.cons.injEq,and_true] at same
  obtain ⟨id,walletId,txHash,fromAddress,amount,asset,issuers,memos,times⟩ := same
  have time := toISOString_injective times
  cases p
  cases other
  simp_all

theorem not_unique {p other : Payment} (differs : other ≠ p) (same : canonical other = canonical p) :
    ¬ HashUnique p := by
  intro unique
  have free : CollisionFree [utf8 (canonical p),utf8 (canonical other)] := by
    rw [same]
    intro a listedA b listedB _
    have a_is : a = utf8 (canonical p) := by simpa using listedA
    have b_is : b = utf8 (canonical p) := by simpa using listedB
    rw [a_is,b_is]
  refine unique other differs free ?_
  rw [hash_of_canonical,hash_of_canonical,same]

theorem cut_of_not_plain {text : String} (bar : ¬ Plain text) : ∃ a b, text = a ++ "|" ++ b := by
  rw [Plain,not_not] at bar
  obtain ⟨before,behind,parts⟩ := List.append_of_mem bar
  refine ⟨String.ofList before,String.ofList behind,String.toList_injective ?_⟩
  simp [parts]

theorem ne_append_bar (a b : String) : a ≠ a ++ "|" ++ b := by
  intro same
  have lengths := congrArg (fun text => text.toList.length) same
  simp at lengths

theorem not_unique_of_bar (bar : ¬ PlainTexts p) : ¬ HashUnique p := by
  simp only [PlainTexts,not_and_or] at bar
  rcases bar with id | walletId | txHash | fromAddress | amount | asset
  · obtain ⟨a,b,parts⟩ := cut_of_not_plain id
    refine @not_unique p { p with id := a, walletId := b ++ "|" ++ p.walletId } ?_ ?_
    · intro same
      exact ne_append_bar a b (parts ▸ congrArg Payment.id same)
    · simp [canonical,words,parts,String.append_assoc]
  · obtain ⟨a,b,parts⟩ := cut_of_not_plain walletId
    refine @not_unique p { p with id := p.id ++ "|" ++ a, walletId := b } ?_ ?_
    · intro same
      exact ne_append_bar p.id a (congrArg Payment.id same).symm
    · simp [canonical,words,parts,String.append_assoc]
  · obtain ⟨a,b,parts⟩ := cut_of_not_plain txHash
    refine @not_unique p { p with walletId := p.walletId ++ "|" ++ a, txHash := b } ?_ ?_
    · intro same
      exact ne_append_bar p.walletId a (congrArg Payment.walletId same).symm
    · simp [canonical,words,parts,String.append_assoc]
  · obtain ⟨a,b,parts⟩ := cut_of_not_plain fromAddress
    refine @not_unique p { p with txHash := p.txHash ++ "|" ++ a, fromAddress := b } ?_ ?_
    · intro same
      exact ne_append_bar p.txHash a (congrArg Payment.txHash same).symm
    · simp [canonical,words,parts,String.append_assoc]
  · obtain ⟨a,b,parts⟩ := cut_of_not_plain amount
    refine @not_unique p { p with fromAddress := p.fromAddress ++ "|" ++ a, amount := b } ?_ ?_
    · intro same
      exact ne_append_bar p.fromAddress a (congrArg Payment.fromAddress same).symm
    · simp [canonical,words,parts,String.append_assoc]
  · obtain ⟨a,b,parts⟩ := cut_of_not_plain asset
    refine @not_unique p { p with asset := a, assetIssuer := some (b ++ "|" ++ p.assetIssuer.getD "N/A") } ?_ ?_
    · intro same
      exact ne_append_bar a b (parts ▸ congrArg Payment.asset same)
    · simp [canonical,words,parts,String.append_assoc]

theorem replaced_of_not_definite {field : Option String} (open' : ¬ Definite field) :
    (∃ other : Option String, other ≠ field ∧ other.getD "N/A" = field.getD "N/A") ∨
      ∃ a b, field = some (a ++ "|" ++ b) := by
  cases field with
  | none => exact .inl ⟨some "N/A",by simp,rfl⟩
  | some text =>
    by_cases plain : Plain text
    · by_cases missing : text = "N/A"
      · exact .inl ⟨none,by simp,by simp [missing]⟩
      · exact absurd ⟨text,rfl,plain,missing⟩ open'
    · obtain ⟨a,b,parts⟩ := cut_of_not_plain plain
      exact .inr ⟨a,b,congrArg some parts⟩

theorem not_unique_of_issuer (open' : ¬ Definite p.assetIssuer) : ¬ HashUnique p := by
  rcases replaced_of_not_definite open' with ⟨issuer,differs,same⟩ | ⟨a,b,parts⟩
  · refine @not_unique p { p with assetIssuer := issuer } ?_ ?_
    · intro same'
      exact differs (congrArg Payment.assetIssuer same')
    · simp [canonical,words,same]
  · refine @not_unique p { p with asset := p.asset ++ "|" ++ a, assetIssuer := some b } ?_ ?_
    · intro same
      exact ne_append_bar p.asset a (congrArg Payment.asset same).symm
    · simp [canonical,words,parts,String.append_assoc]

theorem not_unique_of_memo (open' : ¬ Definite p.memo) : ¬ HashUnique p := by
  rcases replaced_of_not_definite open' with ⟨memo,differs,same⟩ | ⟨a,b,parts⟩
  · refine @not_unique p { p with memo := memo } ?_ ?_
    · intro same'
      exact differs (congrArg Payment.memo same')
    · simp [canonical,words,same]
  · refine @not_unique p { p with assetIssuer := some (p.assetIssuer.getD "N/A" ++ "|" ++ a), memo := some b } ?_ ?_
    · intro same
      have memos : some b = p.memo := congrArg Payment.memo same
      rw [parts,Option.some.injEq] at memos
      have lengths := congrArg (fun text => text.toList.length) memos
      simp at lengths
      omega
    · simp [canonical,words,parts,String.append_assoc]

/-- A payment has its hash to itself exactly where no text holds a bar and the issuer and the memo are there and are not "N/A". Among
    payments whose texts hold no bar, a missing field may stand as well, as long as none is given as "N/A". -/
theorem hash_unique_iff (p : Payment) :
    (HashUnique p ↔ PlainTexts p ∧ Definite p.assetIssuer ∧ Definite p.memo) ∧
      ∀ other, PlainTexts p → Readable p.assetIssuer → Readable p.memo →
        Readable other.assetIssuer → Readable other.memo → CollisionFree [utf8 (canonical p),utf8 (canonical other)] →
          computePayloadHash other.chainable = computePayloadHash p.chainable → other = p := by
  constructor
  · constructor
    · intro unique
      refine ⟨?_,?_,?_⟩
      · by_contra bar
        exact not_unique_of_bar bar unique
      · by_contra open'
        exact not_unique_of_issuer open' unique
      · by_contra open'
        exact not_unique_of_memo open' unique
    · rintro ⟨texts,issuer,memo⟩ other differs free same
      have texts_same : canonical other = canonical p := text_of_hash free (by simp) (by simp) same
      have read := words_of_canonical (plain_words texts (.inr issuer) (.inr memo)) texts_same
      exact differs (eq_of_words read (definite_inj issuer) (definite_inj memo))
  · intro other texts issuer memo issuer' memo' free same
    have texts_same : canonical other = canonical p := text_of_hash free (by simp) (by simp) same
    have read := words_of_canonical (plain_words texts issuer memo) texts_same
    exact eq_of_words read (readable_inj issuer issuer') (readable_inj memo memo')

def lumens (memo : Option String) : Payment :=
  ⟨"p1","w1","t1","GSENDER","10","XLM",none,memo,⟨1709210096123,by decide⟩⟩

/-- A payment without a memo and one with the memo "N/A". -/
theorem missing_memo_hashed :
    lumens none ≠ lumens (some "N/A") ∧
      computePayloadHash (lumens none).chainable = computePayloadHash (lumens (some "N/A")).chainable := by
  have texts : canonical (lumens none) = canonical (lumens (some "N/A")) := rfl
  refine ⟨?_,?_⟩
  · intro same
    exact absurd (congrArg Payment.memo same) (by decide)
  · rw [hash_of_canonical,hash_of_canonical,texts]

end StellarAlerts.ChecksumPayloads
