import Mathlib

/-!
Words joined with a separator: what stands before the first separator, and what stands
behind it, is determined by the whole where the word before it holds none.
-/
namespace StellarAlerts.SeparatedText
universe u
variable {α : Type u} {sep : α} {a b x y : List α}

theorem cut_at (plainA : sep ∉ a) (plainB : sep ∉ b) (same : a ++ sep :: x = b ++ sep :: y) : a = b ∧ x = y := by
  induction a generalizing b with
  | nil =>
    cases b with
    | nil => exact ⟨rfl,List.tail_eq_of_cons_eq same⟩
    | cons c rest =>
      injection same with first _
      exact absurd (first ▸ List.mem_cons_self ..) plainB
  | cons d rest ih =>
    cases b with
    | nil =>
      injection same with first _
      exact absurd (first ▸ List.mem_cons_self ..) plainA
    | cons c others =>
      injection same with first later
      obtain ⟨rests,ends⟩ := ih (List.not_mem_of_not_mem_cons plainA) (List.not_mem_of_not_mem_cons plainB) later
      exact ⟨by rw [first,rests],ends⟩

/-- Two ways to join two words: the same, or one word reaches into the other over a separator. -/
theorem joined_cases (same : a ++ sep :: x = b ++ sep :: y) :
    (a = b ∧ x = y) ∨ (∃ between, b = a ++ sep :: between ∧ x = between ++ sep :: y) ∨
      ∃ between, a = b ++ sep :: between ∧ y = between ++ sep :: x := by
  rcases List.append_eq_append_iff.mp same with ⟨more,bIs,xIs⟩ | ⟨more,aIs,yIs⟩
  · cases more with
    | nil => exact .inl ⟨by simpa using bIs.symm,List.tail_eq_of_cons_eq xIs⟩
    | cons c between =>
      injection xIs with first rest
      subst first
      exact .inr (.inl ⟨between,bIs,rest⟩)
  · cases more with
    | nil => exact .inl ⟨by simpa using aIs,(List.tail_eq_of_cons_eq yIs).symm⟩
    | cons c between =>
      injection yIs with first rest
      subst first
      exact .inr (.inr ⟨between,aIs,rest⟩)

theorem plain_prefix {r between z : List α} (plain : sep ∉ r) (same : r ++ x = between ++ sep :: z) :
    ∃ c, between = r ++ c ∧ x = c ++ sep :: z := by
  rcases List.append_eq_append_iff.mp same with ⟨c,between_is,x_is⟩ | ⟨more,r_is,rest_is⟩
  · exact ⟨c,between_is,x_is⟩
  · cases more with
    | nil => exact ⟨[],by simpa using r_is.symm,by simpa using rest_is.symm⟩
    | cons d more =>
      injection rest_is with first _
      subst first
      exact absurd (by simp [r_is]) plain

/-- Two ways to cut a text at marks: at the same place, or one part reaches over the mark of the other. -/
theorem marked_cases {r r' : List α} (plain : sep ∉ r) (plain' : sep ∉ r')
    (same : a ++ sep :: (r ++ x) = b ++ sep :: (r' ++ y)) :
    (a = b ∧ r ++ x = r' ++ y) ∨ (∃ c, b = a ++ sep :: (r ++ c) ∧ x = c ++ sep :: (r' ++ y)) ∨
      ∃ c, a = b ++ sep :: (r' ++ c) ∧ y = c ++ sep :: (r ++ x) := by
  rcases joined_cases same with both | ⟨between,b_is,x_is⟩ | ⟨between,a_is,y_is⟩
  · exact .inl both
  · obtain ⟨c,between_is,rest_is⟩ := plain_prefix plain x_is
    exact .inr (.inl ⟨c,by rw [b_is,between_is],rest_is⟩)
  · obtain ⟨c,between_is,rest_is⟩ := plain_prefix plain' y_is
    exact .inr (.inr ⟨c,by rw [a_is,between_is],rest_is⟩)

theorem mem_intercalate {c : α} {words : List (List α)} (listed : c ∈ [sep].intercalate words) :
    c = sep ∨ ∃ word ∈ words, c ∈ word := by
  induction words with
  | nil => cases listed
  | cons word words ih =>
    cases words with
    | nil => exact .inr ⟨word,by simp,by simpa using listed⟩
    | cons other words =>
      rw [List.intercalate_cons_cons,List.mem_append,List.mem_append,List.mem_singleton] at listed
      rcases listed with (first | between) | later
      · exact .inr ⟨word,by simp,first⟩
      · exact .inl between
      · rcases ih later with between | ⟨found,member,inside⟩
        · exact .inl between
        · exact .inr ⟨found,List.mem_cons_of_mem word member,inside⟩

section Split
variable [DecidableEq α]

theorem splitOn_append_left (plain : sep ∉ a) (word : List α) :
    (a ++ word).splitOn sep = (word.splitOn sep).modifyHead (a ++ ·) := by
  induction a with
  | nil =>
    obtain ⟨part,rest,parts⟩ := List.exists_cons_of_ne_nil (List.splitOn_ne_nil sep word)
    simp [parts]
  | cons c a ih =>
    have other : (c == sep) = false := beq_eq_false_iff_ne.mpr fun same => plain (same ▸ List.mem_cons_self ..)
    obtain ⟨part,rest,parts⟩ := List.exists_cons_of_ne_nil (List.splitOn_ne_nil sep word)
    rw [List.cons_append,List.splitOn_cons_eq_if_modifyHead,other,ih (List.not_mem_of_not_mem_cons plain),parts]
    simp

theorem splitOn_append_right (plain : sep ∉ b) (word : List α) :
    ∃ others last, word.splitOn sep = others ++ [last] ∧ (word ++ b).splitOn sep = others ++ [last ++ b] := by
  induction word with
  | nil => exact ⟨[],[],rfl,by simpa using List.splitOn_eq_singleton plain⟩
  | cons c word ih =>
    obtain ⟨others,last,parts,parts'⟩ := ih
    rw [List.cons_append,List.splitOn_cons_eq_if_modifyHead,List.splitOn_cons_eq_if_modifyHead,parts,parts']
    by_cases same : c = sep
    · exact ⟨[] :: others,last,by simp [same],by simp [same]⟩
    · cases others with
      | nil => exact ⟨[],c :: last,by simp [same],by simp [same]⟩
      | cons first others => exact ⟨(c :: first) :: others,last,by simp [same],by simp [same]⟩

theorem length_splitOn (word : List α) : (word.splitOn sep).length = word.count sep + 1 := by
  induction word with
  | nil => simp
  | cons c word ih =>
    rw [List.splitOn_cons_eq_if_modifyHead]
    by_cases same : c = sep
    · simp [same,ih]
    · have other : (c == sep) = false := beq_eq_false_iff_ne.mpr same
      simp [other,ih,same]

/-- A reading of the parts that does not see what is put around the word. -/
theorem map_splitOn_between {β : Type*} {f : List α → β} (plainA : sep ∉ a) (plainB : sep ∉ b)
    (left : ∀ word, f (a ++ word) = f word) (right : ∀ word, f (word ++ b) = f word) (word : List α) :
    ((a ++ word ++ b).splitOn sep).map f = (word.splitOn sep).map f := by
  obtain ⟨others,last,parts,parts'⟩ := splitOn_append_right plainB word
  rw [List.append_assoc,splitOn_append_left plainA,parts,parts']
  cases others with
  | nil => simp [left,right]
  | cons first others => simp [left,right]

theorem count_intercalate {word : List α} {words : List (List α)} :
    ([sep].intercalate (word :: words)).count sep = words.length + ((word :: words).map (List.count sep)).sum := by
  induction words generalizing word with
  | nil => simp
  | cons other words ih =>
    rw [List.intercalate_cons_cons,List.count_append,List.count_append,ih]
    simp only [List.count_singleton_self,List.map_cons,List.sum_cons,List.length_cons]
    omega

/-- Words without separators are read back from what is joined of them, whatever stands in as many other words. -/
theorem words_of_intercalate {words others : List (List α)} (plain : ∀ word ∈ words, sep ∉ word)
    (length : others.length = words.length) (same : [sep].intercalate others = [sep].intercalate words) :
    others = words := by
  cases words with
  | nil => exact List.eq_nil_of_length_eq_zero length
  | cons word words =>
    cases others with
    | nil => cases length
    | cons other others =>
      have counts := congrArg (List.count sep) same
      rw [count_intercalate,count_intercalate] at counts
      have none : ((word :: words).map (List.count sep)).sum = 0 := by
        rw [List.sum_eq_zero_iff_forall_eq_nat]
        intro n listed
        obtain ⟨found,member,rfl⟩ := List.mem_map.mp listed
        exact List.count_eq_zero.mpr (plain found member)
      have lengths : others.length = words.length := by simpa using length
      have sum : ((other :: others).map (List.count sep)).sum = 0 := by omega
      have plain' : ∀ found ∈ other :: others, sep ∉ found := by
        intro found member
        rw [← List.count_eq_zero]
        exact List.sum_eq_zero_iff_forall_eq_nat.mp sum _ (List.mem_map_of_mem member)
      rw [← List.splitOn_intercalate sep plain' (List.cons_ne_nil _ _),same,
        List.splitOn_intercalate sep plain (List.cons_ne_nil _ _)]

end Split

end StellarAlerts.SeparatedText
