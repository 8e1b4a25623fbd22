import Mathlib.Tactic

/-!
# Lines printed through a fixed buffer

A line is printed into a buffer: what does not fit is dropped, a terminator is put behind
what does, and the length of the whole line is reported.  The text is put together by
copying that many elements from the buffer, past its end if there are not so many in it.

A line stands in the text as it was meant when it leaves room for the terminator and has
no terminator in it.  The converse needs that a wrong line cannot be made good by what
follows: two texts that differ at a place both have stay different whatever is put behind
them.
-/

namespace FormatBuffer

variable {α β : Type*}

/-! ## Texts that part -/

/-- The two differ at a place that both of them have. -/
def Differ (s t : List α) : Prop :=
  ∃ common a b u v, a ≠ b ∧ s = common ++ a :: u ∧ t = common ++ b :: v

theorem Differ.append {s t : List α} (h : Differ s t) (u v : List α) :
    Differ (s ++ u) (t ++ v) := by
  obtain ⟨common, a, b, restS, restT, hab, rfl, rfl⟩ := h
  exact ⟨common, a, b, restS ++ u, restT ++ v, hab, by simp, by simp⟩

theorem Differ.prepend {s t : List α} (h : Differ s t) (front : List α) :
    Differ (front ++ s) (front ++ t) := by
  obtain ⟨common, a, b, u, v, hab, rfl, rfl⟩ := h
  exact ⟨front ++ common, a, b, u, v, hab, by simp, by simp⟩

theorem Differ.ne {s t : List α} (h : Differ s t) : s ≠ t := by
  obtain ⟨common, a, b, u, v, hab, rfl, rfl⟩ := h
  intro heq
  exact hab (List.cons.inj (List.append_cancel_left heq)).1

/-- Two words without a separator differ once it is put behind them. -/
theorem Differ.of_separated {sep : α} {s t : List α} (hs : sep ∉ s) (ht : sep ∉ t)
    (hne : s ≠ t) (u v : List α) : Differ (s ++ sep :: u) (t ++ sep :: v) := by
  induction s generalizing t with
  | nil =>
      cases t with
      | nil => exact (hne rfl).elim
      | cons b t =>
          exact ⟨[], sep, b, u, t ++ sep :: v, fun hb => ht (by simp [hb]), rfl, rfl⟩
  | cons a s ih =>
      cases t with
      | nil => exact ⟨[], a, sep, s ++ sep :: u, v, fun ha => hs (by simp [ha]), rfl, rfl⟩
      | cons b t =>
          by_cases hab : a = b
          · subst hab
            rw [List.mem_cons, not_or] at hs ht
            exact (ih hs.2 ht.2 (fun hst => hne (hst ▸ rfl))).prepend [a]
          · exact ⟨[], a, b, s ++ sep :: u, t ++ sep :: v, hab, rfl, rfl⟩

/-- Pieces that agree or differ each: the texts agree when all pieces do. -/
theorem flatMap_append_eq_iff {f g : β → List α} {xs : List β}
    (h : ∀ x ∈ xs, f x = g x ∨ Differ (f x) (g x)) (tail : List α) :
    xs.flatMap f ++ tail = xs.flatMap g ++ tail ↔ ∀ x ∈ xs, f x = g x := by
  induction xs with
  | nil => simp
  | cons x xs ih =>
      rw [List.forall_mem_cons] at h ⊢
      simp only [List.flatMap_cons, List.append_assoc]
      rcases h.1 with hsame | hdiffer
      · rw [hsame, List.append_cancel_left_eq, ih h.2]
        simp
      · refine iff_of_false (hdiffer.append _ _).ne fun hall => ?_
        exact hdiffer.ne hall.1

theorem flatMap_inj_of_length {f g : β → List α} {xs : List β}
    (hlen : ∀ x ∈ xs, (f x).length = (g x).length) (h : xs.flatMap f = xs.flatMap g) :
    ∀ x ∈ xs, f x = g x := by
  induction xs with
  | nil => simp
  | cons x xs ih =>
      rw [List.forall_mem_cons] at hlen ⊢
      obtain ⟨hfirst, hrest⟩ := List.append_inj h hlen.1
      exact ⟨hfirst, ih hlen.2 hrest⟩

/-! ## Printing -/

variable (nul : α)

def snprintf (buf line : List α) : List α :=
  line.take (buf.length - 1) ++
    nul :: buf.drop (min line.length (buf.length - 1) + 1)

def copied (buf : List α) (behind : ℕ → α) (n : ℕ) : List α :=
  buf.take n ++ (List.range (n - buf.length)).map behind

/-- One more line is printed, and put behind the text so far.  What lies behind the buffer
may be different each time. -/
def printLine (behind : List α → ℕ → α) (s : List α × List α) (line : List α) :
    List α × List α :=
  let buf := snprintf nul s.2 line
  (s.1 ++ copied buf (behind s.1) line.length, buf)

def printLines (behind : List α → ℕ → α) (s : List α × List α) (lines : List (List α)) :
    List α × List α :=
  lines.foldl (printLine nul behind) s

/-- What becomes of a line in a buffer of `cap` elements with `c` everywhere behind it. -/
def through (cap : ℕ) (c : α) (line : List α) : List α :=
  if line.length < cap then line
  else line.take (cap - 1) ++ nul :: List.replicate (line.length - cap) c

variable {buf : List α}

theorem length_snprintf (line : List α) (hbuf : 0 < buf.length) :
    (snprintf nul buf line).length = buf.length := by
  simp only [snprintf, List.length_append, List.length_take, List.length_cons, List.length_drop]
  omega

variable {nul} {line : List α}

/-- The terminator stands behind what is printed, and what is behind it is left as it was. -/
theorem drop_snprintf :
    (snprintf nul buf line).drop (min line.length (buf.length - 1)) =
      nul :: buf.drop (min line.length (buf.length - 1) + 1) := by
  have hlen : (line.take (buf.length - 1)).length = min line.length (buf.length - 1) := by
    rw [List.length_take, min_comm]
  rw [snprintf, ← hlen, List.drop_left]

theorem printLines_cons (behind : List α → ℕ → α) (s : List α × List α)
    (lines : List (List α)) : printLines nul behind s (line :: lines) =
      printLines nul behind (printLine nul behind s line) lines := rfl

theorem copied_snprintf_of_lt (behind : ℕ → α) (h : line.length < buf.length) :
    copied (snprintf nul buf line) behind line.length = line := by
  have hlen := length_snprintf nul line (Nat.zero_lt_of_lt h)
  have hwhole : line.take (buf.length - 1) = line := List.take_of_length_le (by omega)
  rw [copied, hlen, Nat.sub_eq_zero_of_le h.le, List.range_zero, List.map_nil, List.append_nil,
    snprintf, hwhole, List.take_left]

theorem copied_snprintf_const (c : α) (hbuf : 0 < buf.length) :
    copied (snprintf nul buf line) (fun _ => c) line.length = through nul buf.length c line := by
  by_cases h : line.length < buf.length
  · rw [copied_snprintf_of_lt _ h, through, if_pos h]
  · have hnone : buf.drop (min line.length (buf.length - 1) + 1) = [] :=
      List.drop_eq_nil_of_le (by omega)
    have hwhole : (snprintf nul buf line).take line.length = snprintf nul buf line :=
      List.take_of_length_le (by rw [length_snprintf nul line hbuf]; omega)
    rw [copied, hwhole, length_snprintf nul line hbuf, List.map_const', List.length_range, through,
      if_neg h, snprintf, hnone, List.append_assoc]
    rfl

theorem copied_snprintf_congr {buf' : List α} (behind : ℕ → α) (hbuf : 0 < buf.length)
    (hlen : buf.length = buf'.length) (line : List α) :
    copied (snprintf nul buf line) behind line.length =
      copied (snprintf nul buf' line) behind line.length := by
  by_cases h : line.length < buf.length
  · rw [copied_snprintf_of_lt behind h, copied_snprintf_of_lt behind (hlen ▸ h)]
  · have hnone : buf.drop (min line.length (buf.length - 1) + 1) = [] :=
      List.drop_eq_nil_of_le (by omega)
    have hnone' : buf'.drop (min line.length (buf'.length - 1) + 1) = [] :=
      List.drop_eq_nil_of_le (by omega)
    rw [snprintf, snprintf, hnone, hnone', hlen]

theorem printLines_congr {buf' : List α} (behind : List α → ℕ → α) (text : List α)
    (hbuf : 0 < buf.length) (hlen : buf.length = buf'.length) (lines : List (List α)) :
    (printLines nul behind (text, buf) lines).1 =
      (printLines nul behind (text, buf') lines).1 := by
  induction lines generalizing text buf buf' with
  | nil => rfl
  | cons line lines ih =>
      have hbuf' : 0 < buf'.length := hlen ▸ hbuf
      simp only [printLines_cons, printLine]
      rw [copied_snprintf_congr (behind text) hbuf hlen]
      apply ih
      · rwa [length_snprintf nul line hbuf]
      · rw [length_snprintf nul line hbuf, length_snprintf nul line hbuf', hlen]

theorem printLines_of_lt (behind : List α → ℕ → α) (text : List α) {lines : List (List α)}
    (h : ∀ line ∈ lines, line.length < buf.length) :
    (printLines nul behind (text, buf) lines).1 = text ++ lines.flatten := by
  induction lines generalizing text buf with
  | nil => simp [printLines]
  | cons line lines ih =>
      rw [List.forall_mem_cons] at h
      have hlen := length_snprintf nul line (Nat.zero_lt_of_lt h.1)
      have hlines : ∀ next ∈ lines, next.length < (snprintf nul buf line).length := hlen ▸ h.2
      have hrest := ih (text ++ line) hlines
      rw [List.flatten_cons, ← List.append_assoc, ← hrest]
      simp only [printLines_cons, printLine, copied_snprintf_of_lt _ h.1]

theorem printLines_const (c : α) (text : List α) (hbuf : 0 < buf.length)
    (lines : List (List α)) :
    (printLines nul (fun _ _ => c) (text, buf) lines).1 =
      text ++ lines.flatMap (through nul buf.length c) := by
  induction lines generalizing text buf with
  | nil => simp [printLines]
  | cons line lines ih =>
      have hlen := length_snprintf nul line hbuf
      have hbuf' : 0 < (snprintf nul buf line).length := hlen ▸ hbuf
      have hrest := ih (text ++ through nul buf.length c line) hbuf'
      rw [hlen] at hrest
      rw [List.flatMap_cons, ← List.append_assoc, ← hrest]
      simp only [printLines_cons, printLine, copied_snprintf_const c hbuf]

theorem length_through (cap : ℕ) (c : α) (hcap : 0 < cap) (line : List α) :
    (through nul cap c line).length = line.length := by
  unfold through
  split_ifs with h
  · rfl
  · simp only [List.length_append, List.length_take, List.length_cons, List.length_replicate]
    omega

/-- Only a line that ends within the buffer is independent of what lies behind. -/
theorem length_le_of_through_eq {cap : ℕ} {c d : α} (hcd : c ≠ d)
    (h : through nul cap c line = through nul cap d line) : line.length ≤ cap := by
  by_contra hlong
  unfold through at h
  rw [if_neg (by omega), if_neg (by omega)] at h
  have hrep := (List.cons.inj (List.append_cancel_left h)).2
  have hpos : line.length - cap ≠ 0 := by omega
  exact hcd (List.replicate_right_injective hpos hrep)

/-! ## Lines as they are meant -/

/-- How a line that is printed can be related to the one that is meant: it is that line, it
is cut where that one has a terminator, or it has other things in it and fits. -/
inductive Printed (nul : α) (cap : ℕ) : List α → List α → Prop
  | whole {line : List α} (hnul : nul ∉ line) : Printed nul cap line line
  | cut (common : List α) {a b : α} (u v : List α) (ha : a ≠ nul) :
      Printed nul cap (common ++ a :: b :: u) (common ++ nul :: v)
  | other {line full : List α} (hfits : line.length < cap) (h : Differ line full) :
      Printed nul cap line full

variable {cap : ℕ} {full : List α}

theorem Printed.through_cases (h : Printed nul cap line full) (hcap : 0 < cap) (c : α)
    (hlen : line.length ≤ cap) :
    (line = full ∧ line.length < cap ∧ through nul cap c line = full) ∨
      Differ (through nul cap c line) full ∧ ¬(line = full ∧ line.length < cap) := by
  cases h with
  | whole hnul =>
      by_cases hfits : line.length < cap
      · exact .inl ⟨rfl, hfits, if_pos hfits⟩
      · refine .inr ⟨?_, fun h => hfits h.2⟩
        have hpos : line ≠ [] := List.ne_nil_of_length_pos (by omega)
        have hlast : line.take (cap - 1) ++ [line.getLast hpos] = line := by
          rw [show cap - 1 = line.length - 1 by omega, ← List.dropLast_eq_take,
            List.dropLast_append_getLast]
        refine ⟨line.take (cap - 1), nul, line.getLast hpos,
          List.replicate (line.length - cap) c, [], ?_, if_neg hfits, hlast.symm⟩
        exact fun hnul' => hnul (hnul' ▸ List.getLast_mem hpos)
  | @cut common a b u v ha =>
      have hdiffer : Differ (common ++ a :: b :: u) (common ++ nul :: v) :=
        ⟨common, a, nul, b :: u, v, ha, rfl, rfl⟩
      refine .inr ⟨?_, fun h => hdiffer.ne h.1⟩
      unfold through
      split_ifs with hfits
      · exact hdiffer
      · simp only [List.length_append, List.length_cons] at hlen hfits
        have htake : (common ++ a :: b :: u).take (cap - 1) =
            common ++ a :: (b :: u).take (cap - 1 - common.length - 1) := by
          rw [List.take_append, List.take_of_length_le (by omega),
            show cap - 1 - common.length = cap - 1 - common.length - 1 + 1 by omega,
            List.take_succ_cons]
          rfl
        rw [htake]
        exact ⟨common, a, nul, _, v, ha, by rw [List.append_assoc, List.cons_append], rfl⟩
  | other hfits h =>
      refine .inr ⟨?_, fun heq => h.ne heq.1⟩
      rw [through, if_pos hfits]
      exact h

/-- **Printing through a buffer.**  The text is the one that is meant, whatever lies behind
the buffer, when each line is and leaves room for the terminator. -/
theorem printLines_eq_iff [Nontrivial α] {line full : β → List α} {xs : List β}
    (hprinted : ∀ x ∈ xs, Printed nul buf.length (line x) (full x)) (hbuf : 0 < buf.length)
    (text tail : List α) :
    (∀ behind, (printLines nul behind (text, buf) (xs.map line)).1 ++ tail =
      text ++ xs.flatMap full ++ tail) ↔
      ∀ x ∈ xs, line x = full x ∧ (line x).length < buf.length := by
  constructor
  · intro hall
    have hconst : ∀ c, xs.flatMap (fun x => through nul buf.length c (line x)) ++ tail =
        xs.flatMap full ++ tail := by
      intro c
      have htext := hall fun _ _ => c
      rwa [printLines_const c text hbuf, List.flatMap_map, List.append_assoc,
        List.append_assoc, List.append_cancel_left_eq] at htext
    obtain ⟨c, d, hcd⟩ := exists_pair_ne α
    -- Two memories behind the buffer give the same text, so no line reaches that far.
    have hsame := flatMap_inj_of_length (fun x _ => by
      rw [length_through _ c hbuf, length_through _ d hbuf])
        (List.append_cancel_right ((hconst c).trans (hconst d).symm))
    have hcases := fun x hx =>
      (hprinted x hx).through_cases hbuf c (length_le_of_through_eq hcd (hsame x hx))
    have hagree := (flatMap_append_eq_iff (fun x hx =>
      (hcases x hx).imp (fun h => h.2.2) (fun h => h.1)) tail).mp (hconst c)
    intro x hx
    rcases hcases x hx with ⟨hline, hfits, -⟩ | ⟨hdiffer, -⟩
    · exact ⟨hline, hfits⟩
    · exact (hdiffer.ne (hagree x hx)).elim
  · intro hfits behind
    have hlines : (xs.map line).flatten = xs.flatMap full := by
      rw [← List.flatMap_def, List.flatMap_congr fun x hx => (hfits x hx).1]
    rw [printLines_of_lt behind text (by simpa using fun x hx => (hfits x hx).2), hlines]

end FormatBuffer
