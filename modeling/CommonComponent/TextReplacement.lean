import Mathlib.Tactic

/-!
# Replacing a word in a text

`replaceAll` goes over a text from the left.  Where the word stands it puts the replacement
and goes on behind the word, and what has been put there is not searched again.

A search that replaces one place at a time, in the text as it is by then, has done the same
when it finds after each replacement what a search of the rest would find.  `Scan` are the
points at which such a search is when all has gone well so far.
-/

namespace TextReplacement

variable {α : Type*} [DecidableEq α]

/-- The first place from `pos` on at which the word stands. -/
def find (text search : List α) (pos : ℕ) : Option ℕ :=
  (List.range (text.length + 1)).find? fun i => pos ≤ i ∧ search <+: text.drop i

/-- The word is not empty.  `skip` letters of it are still to be left out. -/
def replaceAll (search replace : List α) : ℕ → List α → List α
  | _, [] => []
  | 0, c :: rest =>
      if search <+: c :: rest then replace ++ replaceAll search replace (search.length - 1) rest
      else c :: replaceAll search replace 0 rest
  | skip + 1, _ :: rest => replaceAll search replace skip rest

def First (search front back : List α) : Prop :=
  ∀ i < front.length, ¬search <+: (front ++ search ++ back).drop i

/-- `done` has been put together, and `rest` of the source is still to be searched. -/
inductive Scan (search replace source : List α) : List α → List α → Prop
  | start : Scan search replace source [] source
  | replaced {done front back : List α} (h : Scan search replace source done
      (front ++ search ++ back)) (hfirst : First search front back) :
      Scan search replace source (done ++ front ++ replace) back

/-! ## The search -/

variable {text search replace : List α} {pos p : ℕ}

theorem find_eq_some_iff : find text search pos = some p ↔
    (pos ≤ p ∧ search <+: text.drop p) ∧ p ≤ text.length ∧
      ∀ i < p, pos ≤ i → ¬search <+: text.drop i := by
  simp [find, List.find?_range_eq_some, imp_iff_not_or]

omit [DecidableEq α] in
theorem lt_length_of_prefix_drop (hsearch : search ≠ []) (h : search <+: text.drop p) :
    p + search.length ≤ text.length ∧ 0 < search.length := by
  have hlen := h.length_le
  have hpos := List.length_pos_iff.mpr hsearch
  rw [List.length_drop] at hlen
  omega

omit [DecidableEq α] in
theorem take_append_drop_of_prefix (h : search <+: text.drop p) :
    text.take p ++ search ++ text.drop (p + search.length) = text := by
  obtain ⟨back, hback⟩ := h
  rw [← List.drop_drop, ← hback, List.drop_left, List.append_assoc, hback,
    List.take_append_drop]

theorem find_eq_none_iff (hsearch : search ≠ []) : find text search pos = none ↔
    ∀ i, pos ≤ i → ¬search <+: text.drop i := by
  simp only [find, List.find?_range_eq_none, Nat.lt_succ_iff,
    Bool.not_eq_true', decide_eq_false_iff_not]
  constructor
  · intro h i hi hat
    have hlt := lt_length_of_prefix_drop hsearch hat
    exact h i (by omega) ⟨hi, hat⟩
  · rintro h i - ⟨hi, hat⟩
    exact h i hi hat

theorem find_congr {lo hi : ℕ} (hle : lo ≤ hi)
    (h : ∀ i, lo ≤ i → i < hi → ¬search <+: text.drop i) :
    find text search lo = find text search hi := by
  unfold find
  congr 1
  funext i
  by_cases hat : search <+: text.drop i
  · have hiff : lo ≤ i ↔ hi ≤ i := ⟨fun hlo => not_lt.mp fun hlt => h i hlo hlt hat, hle.trans⟩
    simp [hat, hiff]
  · simp [hat]

theorem find_append (done rest : List α) :
    find (done ++ rest) search done.length = (find rest search 0).map (done.length + ·) := by
  cases hfind : find rest search 0 with
  | some p =>
      obtain ⟨⟨-, hat⟩, hle, hbefore⟩ := find_eq_some_iff.mp hfind
      rw [Option.map_some, find_eq_some_iff]
      refine ⟨⟨by omega, by rwa [List.drop_length_add_append]⟩, by simp [hle], ?_⟩
      intro i hi hdone hat'
      obtain ⟨j, rfl⟩ := Nat.exists_eq_add_of_le hdone
      rw [List.drop_length_add_append] at hat'
      exact hbefore j (by omega) j.zero_le hat'
  | none =>
      simp only [find, List.find?_range_eq_none, Nat.lt_succ_iff,
        Bool.not_eq_true', decide_eq_false_iff_not, Option.map_none] at hfind ⊢
      rintro i hi ⟨hdone, hat⟩
      obtain ⟨j, rfl⟩ := Nat.exists_eq_add_of_le hdone
      rw [List.drop_length_add_append] at hat
      rw [List.length_append] at hi
      exact hfind j (by omega) ⟨j.zero_le, hat⟩

theorem exists_first_of_find {rest : List α} (h : find rest search 0 = some p) :
    ∃ front back, rest = front ++ search ++ back ∧ front.length = p ∧
      First search front back := by
  obtain ⟨⟨-, hat⟩, hle, hbefore⟩ := find_eq_some_iff.mp h
  obtain ⟨back, hback⟩ := hat
  have hrest : rest.take p ++ search ++ back = rest := by
    rw [List.append_assoc, hback, List.take_append_drop]
  have hlen : (rest.take p).length = p := List.length_take_of_le hle
  refine ⟨rest.take p, back, hrest.symm, hlen, fun i hi => ?_⟩
  rw [hrest]
  exact hbefore i (hlen ▸ hi) i.zero_le

/-! ## What the scan puts together -/

theorem replaceAll_skip (word rest : List α) :
    replaceAll search replace word.length (word ++ rest) = replaceAll search replace 0 rest := by
  induction word with
  | nil => rfl
  | cons c word ih => exact ih

theorem replaceAll_of_not (h : ∀ i, ¬search <+: text.drop i) :
    replaceAll search replace 0 text = text := by
  induction text with
  | nil => rfl
  | cons c rest ih =>
      have hhere : ¬search <+: c :: rest := h 0
      rw [replaceAll, if_neg hhere, ih fun i => h (i + 1)]

theorem replaceAll_of_first (hsearch : search ≠ []) (replace : List α) {front back : List α}
    (hfirst : First search front back) :
    replaceAll search replace 0 (front ++ search ++ back) =
      front ++ replace ++ replaceAll search replace 0 back := by
  induction front with
  | nil =>
      obtain ⟨c, word, rfl⟩ := List.exists_cons_of_ne_nil hsearch
      rw [List.nil_append, List.cons_append, replaceAll, if_pos ⟨back, by simp⟩,
        List.length_cons, Nat.add_sub_cancel, replaceAll_skip, List.nil_append]
  | cons c front ih =>
      have hrest : First search front back := fun i hi =>
        hfirst (i + 1) (Nat.succ_lt_succ hi)
      have hhere := hfirst 0 (Nat.succ_pos _)
      rw [List.drop_zero, List.cons_append, List.cons_append] at hhere
      rw [List.cons_append, List.cons_append, replaceAll, if_neg hhere, ih hrest]
      rfl

variable {source done rest : List α}

theorem Scan.replaceAll_eq (hsearch : search ≠ []) (h : Scan search replace source done rest) :
    replaceAll search replace 0 source = done ++ replaceAll search replace 0 rest := by
  induction h with
  | start => rfl
  | replaced _ hfirst ih =>
      rw [ih, replaceAll_of_first hsearch _ hfirst]
      simp only [List.append_assoc]

/-- A text has no occurrence of the word, or a first one and a text behind it. -/
theorem occurrence_induction (hsearch : search ≠ []) {P : List α → Prop}
    (hnone : ∀ text, (∀ i, ¬search <+: text.drop i) → P text)
    (hfirst : ∀ front back, First search front back → P back → P (front ++ search ++ back))
    (text : List α) : P text := by
  induction hlen : text.length using Nat.strong_induction_on generalizing text with
  | _ n ih =>
      subst hlen
      cases hfind : find text search 0 with
      | none => exact hnone text fun i => (find_eq_none_iff hsearch).mp hfind i i.zero_le
      | some p =>
          obtain ⟨front, back, rfl, -, hat⟩ := exists_first_of_find hfind
          have hpos := List.length_pos_iff.mpr hsearch
          have hlt : back.length < (front ++ search ++ back).length := by
            simp only [List.length_append]
            omega
          exact hfirst front back hat (ih _ hlt back rfl)

/-- A word that is put in its own place does not change the text. -/
theorem replaceAll_self (hsearch : search ≠ []) (text : List α) :
    replaceAll search search 0 text = text := by
  induction text using occurrence_induction hsearch with
  | hnone text hnone => exact replaceAll_of_not hnone
  | hfirst front back hfirst ih => rw [replaceAll_of_first hsearch _ hfirst, ih]

theorem length_le_replaceAll (hsearch : search ≠ []) (hle : search.length ≤ replace.length)
    (text : List α) : text.length ≤ (replaceAll search replace 0 text).length := by
  induction text using occurrence_induction hsearch with
  | hnone text hnone => rw [replaceAll_of_not hnone]
  | hfirst front back hfirst ih =>
      rw [replaceAll_of_first hsearch _ hfirst]
      simp only [List.length_append]
      omega

theorem mem_replaceAll (hsearch : search ≠ []) {c : α}
    (h : c ∈ replaceAll search replace 0 text) : c ∈ text ∨ c ∈ replace := by
  induction text using occurrence_induction hsearch with
  | hnone text hnone =>
      rw [replaceAll_of_not hnone] at h
      exact .inl h
  | hfirst front back hfirst ih =>
      rw [replaceAll_of_first hsearch _ hfirst] at h
      simp only [List.mem_append] at h ⊢
      tauto

/-- The text on the way is not longer than the source and the result. -/
theorem Scan.length_le (hsearch : search ≠ []) (h : Scan search replace source done rest) :
    (done ++ rest).length ≤ max source.length (replaceAll search replace 0 source).length := by
  by_cases hle : search.length ≤ replace.length
  · have hrest := length_le_replaceAll hsearch hle rest
    rw [h.replaceAll_eq hsearch]
    simp only [List.length_append]
    omega
  · refine le_max_of_le_left ?_
    induction h with
    | start => rfl
    | replaced _ _ ih =>
        simp only [List.length_append] at ih ⊢
        omega

/-! ## Texts in order -/

section Rank

variable {β : Type*} [LinearOrder β]

/-- Shorter texts come first, and those of one length in the order of their letters. -/
def rank (text : List β) : ℕ ×ₗ List β := toLex (text.length, text)

theorem rank_lt_iff {s t : List β} :
    rank s < rank t ↔ s.length < t.length ∨ s.length = t.length ∧ s < t :=
  Prod.Lex.toLex_lt_toLex

theorem append_right_lt {s t : List β} (hlen : s.length = t.length) (h : s < t) (tail : List β) :
    s ++ tail < t ++ tail := by
  induction s generalizing t with
  | nil =>
      rw [List.length_nil, eq_comm, List.length_eq_zero_iff] at hlen
      exact absurd (hlen ▸ h) (lt_irrefl _)
  | cons a s ih =>
      cases t with
      | nil => cases hlen
      | cons b t =>
          rw [List.cons_append, List.cons_append, List.cons_lt_cons_iff]
          rw [List.cons_lt_cons_iff] at h
          exact h.imp_right fun ⟨hab, hst⟩ => ⟨hab, ih (Nat.succ.inj hlen) hst⟩

/-- Putting a word in the place of an earlier one makes the text a later one. -/
theorem rank_replaced_lt {search replace : List β} (h : rank search < rank replace)
    (front back : List β) :
    rank (front ++ search ++ back) < rank (front ++ replace ++ back) := by
  rw [rank_lt_iff] at h ⊢
  rcases h with hlen | ⟨hlen, hlt⟩
  · left
    simp only [List.length_append]
    omega
  · right
    refine ⟨by simp only [List.length_append, hlen], ?_⟩
    rw [List.append_assoc, List.append_assoc]
    exact List.append_left_lt (append_right_lt hlen hlt back)

end Rank

end TextReplacement
