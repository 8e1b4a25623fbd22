import Mathlib.Computability.Language
import Mathlib.Tactic

/-!
# The language of a wildcard pattern

A pattern is a word of tokens: a letter, any one letter, or a run of any letters.  Its
language is the product of the languages of its tokens.

A matcher that looks for the pieces between the runs from left to right looks for a part of
the word: `within p` are the words that have a part in the language of `p`.  The rules say
what a step of such a search does to `within`.
-/

namespace Glob

variable {α : Type*}

inductive Token (α : Type*)
  | letter (a : α)
  | any
  | run
deriving DecidableEq

def Token.language : Token α → Language α
  | .letter a => {[a]}
  | .any => ({w | w.length = 1} : Set (List α))
  | .run => (Set.univ : Set (List α))

def language (p : List (Token α)) : Language α := (p.map Token.language).prod

/-- The words with a part in the language of `p`. -/
def within (p : List (Token α)) : Language α := language (.run :: (p ++ [.run]))

inductive Fits : Token α → α → Prop
  | letter (a : α) : Fits (.letter a) a
  | any (a : α) : Fits .any a

/-! ## Words of a language -/

variable {p q rest : List (Token α)} {t : Token α} {a : α} {w tail : List α}

theorem mem_nil : w ∈ language ([] : List (Token α)) ↔ w = [] := Language.mem_one w

theorem mem_append : w ∈ language (p ++ q) ↔
    ∃ u v, w = u ++ v ∧ u ∈ language p ∧ v ∈ language q := by
  rw [language, List.map_append, List.prod_append, Language.mem_mul]
  constructor
  · rintro ⟨u, hu, v, hv, rfl⟩
    exact ⟨u, v, rfl, hu, hv⟩
  · rintro ⟨u, v, rfl, hu, hv⟩
    exact ⟨u, hu, v, hv, rfl⟩

theorem mem_cons : w ∈ language (t :: p) ↔
    ∃ u v, w = u ++ v ∧ u ∈ t.language ∧ v ∈ language p := by
  rw [language, List.map_cons, List.prod_cons, Language.mem_mul]
  constructor
  · rintro ⟨u, hu, v, hv, rfl⟩
    exact ⟨u, v, rfl, hu, hv⟩
  · rintro ⟨u, v, rfl, hu, hv⟩
    exact ⟨u, hu, v, hv, rfl⟩

theorem mem_run_cons : w ∈ language (.run :: p) ↔ ∃ u v, w = u ++ v ∧ v ∈ language p := by
  rw [mem_cons]
  constructor
  · rintro ⟨u, v, hw, -, hv⟩
    exact ⟨u, v, hw, hv⟩
  · rintro ⟨u, v, hw, hv⟩
    exact ⟨u, v, hw, trivial, hv⟩

theorem Fits.ne_run (h : Fits t a) : t ≠ .run := by
  rintro rfl
  cases h

theorem singleton_mem_iff (ht : t ≠ .run) (u : List α) :
    u ∈ t.language ↔ ∃ a, u = [a] ∧ Fits t a := by
  cases t with
  | letter b =>
      constructor
      · intro hu
        exact ⟨b, hu, .letter b⟩
      · rintro ⟨a, rfl, ha⟩
        cases ha
        exact rfl
  | any =>
      constructor
      · intro hu
        obtain ⟨a, ha⟩ := List.length_eq_one_iff.mp hu
        exact ⟨a, ha, .any a⟩
      · rintro ⟨a, rfl, -⟩
        exact rfl
  | run => exact (ht rfl).elim

theorem mem_cons_of_ne_run (ht : t ≠ .run) : w ∈ language (t :: p) ↔
    ∃ a v, w = a :: v ∧ Fits t a ∧ v ∈ language p := by
  rw [mem_cons]
  constructor
  · rintro ⟨u, v, rfl, hu, hv⟩
    obtain ⟨a, rfl, ha⟩ := (singleton_mem_iff ht u).mp hu
    exact ⟨a, v, rfl, ha, hv⟩
  · rintro ⟨a, v, rfl, ha, hv⟩
    exact ⟨[a], v, rfl, (singleton_mem_iff ht _).mpr ⟨a, rfl, ha⟩, hv⟩

/-! ## Pieces without a run -/

variable {piece : List (Token α)} {word : List α}

theorem append_mem_iff (hfits : List.Forall₂ Fits piece word) :
    word ++ tail ∈ language (piece ++ q) ↔ tail ∈ language q := by
  induction hfits with
  | nil => rfl
  | @cons t a piece word ha _ ih =>
      rw [List.cons_append, List.cons_append, mem_cons_of_ne_run ha.ne_run, ← ih]
      constructor
      · rintro ⟨b, v, heq, -, hv⟩
        obtain ⟨-, rfl⟩ := List.cons.inj heq
        exact hv
      · exact fun hv => ⟨a, _, rfl, ha, hv⟩

theorem length_of_mem (hpiece : ∀ t ∈ p, t ≠ .run) (hw : w ∈ language p) :
    w.length = p.length := by
  induction p generalizing w with
  | nil => rw [mem_nil.mp hw]; rfl
  | cons t p ih =>
      rw [List.forall_mem_cons] at hpiece
      obtain ⟨a, v, rfl, -, hv⟩ := (mem_cons_of_ne_run hpiece.1).mp hw
      rw [List.length_cons, List.length_cons, ih hpiece.2 hv]

theorem Fits.forall_ne_run (hfits : List.Forall₂ Fits piece word) :
    ∀ t ∈ piece, t ≠ .run := by
  induction hfits with
  | nil => simp
  | cons ha _ ih => exact List.forall_mem_cons.mpr ⟨ha.ne_run, ih⟩

def letters : List (Token α) → ℕ
  | [] => 0
  | .run :: p => letters p
  | _ :: p => letters p + 1

theorem letters_cons_of_ne_run (ht : t ≠ .run) : letters (t :: p) = letters p + 1 := by
  cases t with
  | run => exact (ht rfl).elim
  | letter a => rfl
  | any => rfl

theorem letters_le_length (hw : w ∈ language p) : letters p ≤ w.length := by
  induction p generalizing w with
  | nil => exact Nat.zero_le _
  | cons t p ih =>
      by_cases ht : t = .run
      · subst ht
        obtain ⟨u, v, rfl, hv⟩ := mem_run_cons.mp hw
        rw [List.length_append]
        exact (ih hv).trans (Nat.le_add_left _ _)
      · obtain ⟨a, v, rfl, -, hv⟩ := (mem_cons_of_ne_run ht).mp hw
        rw [letters_cons_of_ne_run ht, List.length_cons]
        exact Nat.succ_le_succ (ih hv)

theorem letters_append_of_fits (hfits : List.Forall₂ Fits piece word) :
    letters (piece ++ p) = word.length + letters p := by
  induction hfits with
  | nil => exact (Nat.zero_add _).symm
  | cons ha _ ih =>
      rw [List.cons_append, letters_cons_of_ne_run ha.ne_run, ih, List.length_cons]
      omega

theorem letters_eq_zero_iff : letters p = 0 ↔ ∀ t ∈ p, t = .run := by
  induction p with
  | nil => simp [letters]
  | cons t p ih =>
      rw [List.forall_mem_cons, ← ih]
      by_cases ht : t = .run
      · simp [ht, letters]
      · simp [ht, letters_cons_of_ne_run ht]

theorem letters_eq_length (hp : ∀ t ∈ p, t ≠ .run) : letters p = p.length := by
  induction p with
  | nil => rfl
  | cons t p ih =>
      rw [List.forall_mem_cons] at hp
      rw [letters_cons_of_ne_run hp.1, ih hp.2, List.length_cons]

theorem nil_mem_of_runs (hruns : ∀ t ∈ p, t = .run) : [] ∈ language p := by
  induction p with
  | nil => exact mem_nil.mpr rfl
  | cons t p ih =>
      rw [List.forall_mem_cons] at hruns
      rw [hruns.1]
      exact mem_run_cons.mpr ⟨[], [], rfl, ih hruns.2⟩

/-! ## Searching -/

theorem mem_within : w ∈ within p ↔
    ∃ front part back, w = front ++ part ++ back ∧ part ∈ language p := by
  rw [within, mem_run_cons]
  constructor
  · rintro ⟨front, v, rfl, hv⟩
    obtain ⟨part, back, rfl, hpart, -⟩ := mem_append.mp hv
    exact ⟨front, part, back, (List.append_assoc _ _ _).symm, hpart⟩
  · rintro ⟨front, part, back, rfl, hpart⟩
    refine ⟨front, part ++ back, List.append_assoc _ _ _, ?_⟩
    exact mem_append.mpr ⟨part, back, rfl, hpart,
      mem_run_cons.mpr ⟨back, [], (List.append_nil _).symm, mem_nil.mpr rfl⟩⟩

theorem language_le_within (hw : w ∈ language p) : w ∈ within p :=
  mem_within.mpr ⟨[], w, [], by simp, hw⟩

theorem within_append_left (front : List α) (hw : w ∈ within p) : front ++ w ∈ within p := by
  obtain ⟨front', part, back, rfl, hpart⟩ := mem_within.mp hw
  exact mem_within.mpr ⟨front ++ front', part, back, by simp, hpart⟩

theorem mem_within_cons : a :: w ∈ within p ↔
    a :: w ∈ language (p ++ [.run]) ∨ w ∈ within p := by
  constructor
  · intro h
    obtain ⟨front, v, heq, hv⟩ := mem_run_cons.mp h
    cases front with
    | nil =>
        rw [List.nil_append] at heq
        exact .inl (heq ▸ hv)
    | cons b front =>
        obtain ⟨-, rfl⟩ := List.cons.inj heq
        exact .inr (mem_run_cons.mpr ⟨front, v, rfl, hv⟩)
  · rintro (h | h)
    · exact mem_run_cons.mpr ⟨[], _, rfl, h⟩
    · exact within_append_left [a] h

/-- **A mismatch.**  The piece does not begin here, so the search goes on at the next
letter. -/
theorem within_mismatch (hfits : List.Forall₂ Fits piece word) (ht : t ≠ .run)
    (ha : ¬Fits t a) : word ++ a :: tail ∈ within (piece ++ t :: rest) ↔
      (word ++ a :: tail).tail ∈ within (piece ++ t :: rest) := by
  have hnot : word ++ a :: tail ∉ language (piece ++ (t :: rest ++ [.run])) := by
    rw [append_mem_iff hfits, List.cons_append, mem_cons_of_ne_run ht]
    rintro ⟨b, v, heq, hb, -⟩
    exact ha ((List.cons.inj heq).1 ▸ hb)
  obtain ⟨b, w, hw⟩ : ∃ b w, word ++ a :: tail = b :: w :=
    List.exists_cons_of_ne_nil (by simp)
  rw [hw] at hnot ⊢
  rw [mem_within_cons, List.append_assoc]
  exact or_iff_right hnot

/-- **A run.**  The piece before it has been found, and its first place is as good as any
other. -/
theorem within_run (hfits : List.Forall₂ Fits piece word) :
    word ++ tail ∈ within (piece ++ .run :: rest) ↔ tail ∈ within rest := by
  constructor
  · intro h
    obtain ⟨front, v, hw, hv⟩ := mem_run_cons.mp h
    rw [List.append_assoc] at hv
    obtain ⟨word', v', rfl, hword', hv'⟩ := mem_append.mp hv
    have hlen : word'.length = word.length := by
      rw [length_of_mem (Fits.forall_ne_run hfits) hword', hfits.length_eq]
    have htail : tail = (front ++ word').drop word.length ++ v' := by
      have hdrop := congrArg (List.drop word.length) hw
      rw [List.drop_left, ← List.append_assoc, List.drop_append_of_le_length] at hdrop
      · exact hdrop
      · rw [List.length_append]
        omega
    rw [htail]
    exact within_append_left _ hv'
  · intro h
    refine mem_run_cons.mpr ⟨[], _, rfl, ?_⟩
    rw [List.append_assoc]
    exact (append_mem_iff hfits).mpr h

theorem within_found (hfits : List.Forall₂ Fits piece word) : word ++ tail ∈ within piece := by
  refine mem_within.mpr ⟨[], word, tail, rfl, ?_⟩
  have hnil : ([] : List α) ∈ language ([] : List (Token α)) := mem_nil.mpr rfl
  have hword := (append_mem_iff hfits).mpr hnil
  rwa [List.append_nil, List.append_nil] at hword

/-- **The end of the word.**  What is left of the pattern has to be runs. -/
theorem within_end (hfits : List.Forall₂ Fits piece word) :
    word ∈ within (piece ++ rest) ↔ ∀ t ∈ rest, t = .run := by
  constructor
  · intro h
    obtain ⟨front, part, back, hword, hpart⟩ := mem_within.mp h
    have hletters := letters_le_length hpart
    have hlen := congrArg List.length hword
    rw [letters_append_of_fits hfits] at hletters
    simp only [List.length_append] at hlen
    exact letters_eq_zero_iff.mp (by omega)
  · intro hruns
    have hword := (append_mem_iff hfits).mpr (nil_mem_of_runs hruns)
    rw [List.append_nil] at hword
    exact language_le_within hword

/-! ## The first place -/

/-- Every beginning of the word that has `p` at its end has `n` letters at least. -/
def Earliest (w : List α) (p : List (Token α)) (n : ℕ) : Prop :=
  ∀ y z, w = y ++ z → y ∈ language (.run :: p) → n ≤ y.length

variable {n : ℕ} {front : List α}

theorem earliest_letters (w : List α) (p : List (Token α)) : Earliest w p (letters p) :=
  fun _ _ _ hy => letters_le_length (p := .run :: p) hy

theorem Earliest.run (h : Earliest w p n) : Earliest w (p ++ .run :: q) (n + letters q) := by
  intro y z hw hy
  obtain ⟨u, v, rfl, hu, hv⟩ := mem_append (p := .run :: p).mp hy
  have hlong := h u (v ++ z) (by rw [hw, List.append_assoc]) hu
  have hmore := letters_le_length (p := .run :: q) hv
  rw [List.length_append]
  exact Nat.add_le_add hlong hmore

/-- At a mismatch the piece does not begin where it was tried, so the first place is
further on. -/
theorem Earliest.mismatch (hq : ∀ t ∈ q, t ≠ .run) (hfits : List.Forall₂ Fits piece word)
    (ht : t ≠ .run) (ha : ¬Fits t a) (hw : w = front ++ word ++ a :: tail)
    (h : Earliest w (p ++ (piece ++ t :: q)) (front.length + (piece ++ t :: q).length)) :
    Earliest w (p ++ (piece ++ t :: q)) (front.length + 1 + (piece ++ t :: q).length) := by
  intro y z hyz hy
  have hle := h y z hyz hy
  obtain ⟨u, v, rfl, -, hv⟩ := mem_append (p := .run :: p).mp hy
  have hpiece : ∀ t' ∈ piece ++ t :: q, t' ≠ .run := by
    intro t' ht'
    rcases List.mem_append.mp ht' with hmem | hmem
    · exact Fits.forall_ne_run hfits t' hmem
    · rcases List.mem_cons.mp hmem with rfl | hmem
      · exact ht
      · exact hq t' hmem
  have hlen : (u ++ v).length = u.length + (piece ++ t :: q).length := by
    rw [List.length_append, length_of_mem hpiece hv]
  rw [hlen] at hle ⊢
  by_contra hshort
  -- then the piece would begin right behind `front`
  have hfront : u.length = front.length := by omega
  rw [hyz, List.append_assoc, List.append_assoc] at hw
  have hrest := (List.append_inj hw hfront).2
  obtain ⟨word', v', rfl, hword', hv'⟩ := mem_append.mp hv
  obtain ⟨b, v'', rfl, hb, -⟩ := (mem_cons_of_ne_run ht).mp hv'
  have hword : word'.length = word.length := by
    rw [length_of_mem (Fits.forall_ne_run hfits) hword', hfits.length_eq]
  rw [List.append_assoc] at hrest
  have hletter := (List.append_inj hrest hword).2
  exact ha ((List.cons.inj hletter).1 ▸ hb)

end Glob
