import CommonComponent.FueledLoop
import CommonComponent.GlobLanguage
import CommonComponent.ProtoMsgCodec
import Mathlib.Data.List.TakeWhile
import Mathlib.Data.Prod.Lex
import Mathlib.Tactic

/-!
# Matching with wildcards

`MatchWithAsteriskW` looks for the pieces of the pattern between its stars, each behind the
one before.  At a mismatch it goes back to the beginning of the piece and on to the next
letter of the string.  It does so before the first star as well, and what is left of the
string when the pattern is at its end does not count.

So 0 means that a part of the string is in the language of the pattern, and that the first
letter is right where the pattern begins with one.  The place to go back to is an `int`:
behind a star whose place is none, letters that differ end the search, and 0 is returned.
-/

namespace CommonComponent

open FueledLoop Glob

abbrev SizedStr := {bytes : Bytes // bytes.length < 2 ^ 64}

/-- `mark` is an `int`, and the other two are `size_t`. -/
structure MatchState where
  mark : ℤ
  p1 : ℕ
  p2 : ℕ
deriving DecidableEq

/-- `outside` is a read that is not within one of the strings. -/
inductive MatchResult
  | outside
  | ret (value : ℤ)
deriving DecidableEq

def sizeT (x : ℤ) : ℕ := (x % 2 ^ 64).toNat

def toInt (n : ℕ) : ℤ := Int.bmod n (2 ^ 32)

def restOfPattern : Bytes → ℤ
  | [] => 0
  | c :: rest => if c ≠ 42 then -1 else restOfPattern rest

def matchEnd (str pattern : Bytes) (s : MatchState) : MatchResult :=
  if s.p2 = pattern.length then
    if s.p1 = str.length then .ret 0
    else
      match s.p2 with
      | 0 => .outside
      | last + 1 =>
          if pattern[last]? = some 42 then .ret 0
          else .ret (restOfPattern (pattern.drop (last + 1)))
  else .ret (restOfPattern (pattern.drop s.p2))

/-- One pass of the main loop; 63 is the question mark. -/
def matchPass (str pattern : Bytes) (s : MatchState) : MatchResult ⊕ MatchState :=
  if s.p1 < str.length ∧ s.p2 < pattern.length then
    match str[s.p1]?, pattern[s.p2]? with
    | some a, some c =>
        if c = 63 then .inr { s with p1 := s.p1 + 1, p2 := s.p2 + 1 }
        else if c = 42 then .inr { s with p2 := s.p2 + 1, mark := toInt (s.p2 + 1) }
        else if a ≠ c then
          if s.p1 = 0 ∧ s.p2 = 0 then .inl (.ret (-1))
          else .inr { s with p1 := sizeT (s.p1 - (s.p2 - s.mark - 1)), p2 := sizeT s.mark }
        else .inr { s with p1 := s.p1 + 1, p2 := s.p2 + 1 }
    | _, _ => .inl .outside
  else .inl (matchEnd str pattern s)

/-- `none` among the strings is a null pointer, and without a result the fuel is not
enough. -/
def matchWithAsteriskW (fuel : ℕ) (str pattern : Option SizedStr) : Option MatchResult :=
  match str, pattern with
  | some str, some pattern => loop (fun _ => matchPass str.1 pattern.1) fuel 0 ⟨0, 0, 0⟩
  | _, _ => some (.ret (-1))

/-! ## What the result is to say -/

def token (c : UInt8) : Token UInt8 :=
  if c = 63 then .any else if c = 42 then .run else .letter c

def glob (pattern : Bytes) : List (Token UInt8) := pattern.map token

/-- The function returns, has not read outside its strings, and says whether the string is
in the language of the pattern. -/
def GlobLaw (str pattern : SizedStr) : Prop :=
  ∃ value, (∃ fuel, matchWithAsteriskW fuel (some str) (some pattern) = some (.ret value)) ∧
    (value = 0 ↔ str.1 ∈ language (glob pattern.1))

/-- Where the pattern begins with a letter, so does the string, unless it is empty. -/
def FirstFits (str pattern : Bytes) : Prop :=
  ∀ c ∈ pattern.head?, c ≠ 63 → c ≠ 42 → ∀ a ∈ str.head?, a = c

/-- No star stands so far behind that its place is not an `int`. -/
def MarkFits (pattern : Bytes) : Prop := ∀ i : ℕ, pattern[i]? = some 42 → i + 1 < 2 ^ 31

/-- `front` is the shortest beginning of the string that has the pattern at its end. -/
structure Shortest (str pattern front : Bytes) : Prop where
  found : front ∈ language (.run :: glob pattern)
  earliest : Earliest str (glob pattern) front.length

/-- The letters of the pattern and of the string differ at some place, when the stars are
skipped and nothing is searched for. -/
def Mismatch (pattern str : Bytes) : Prop :=
  ∃ pair ∈ (pattern.filter (· ≠ 42)).zip str, ¬Fits (token pair.1) pair.2

/-- What stands before the first star whose place is no `int` is found in the string, and
the letters behind it differ. -/
structure MarkLost (str pattern : Bytes) : Prop where
  first : FirstFits str pattern
  lost : ∃ before behind front tail, pattern = before ++ 42 :: behind ∧ str = front ++ tail ∧
    MarkFits before ∧ 2 ^ 31 ≤ before.length + 1 ∧ Shortest str before front ∧
      Mismatch behind tail

/-- Where the place of a star is no `int`, it becomes a negative one, which as a `size_t`
is behind the pattern. -/
structure StarsFit (pattern : Bytes) : Prop where
  stars : ∀ i : ℕ, pattern[i]? = some 42 → i + 1 < 2 ^ 32
  length : pattern.length ≤ 2 ^ 64 - 2 ^ 31

/-- An empty pattern is only tried on an empty string; and a string with the right first
letter that has a part in the language of the pattern is in it as a whole. -/
structure GlobOk (str pattern : SizedStr) : Prop where
  nonempty : pattern.1 = [] → str.1 = []
  whole : FirstFits str.1 pattern.1 → ∀ front part back, str.1 = front ++ part ++ back →
    part ∈ language (glob pattern.1) → str.1 ∈ language (glob pattern.1)

/-- The strings and patterns that are dealt with rightly. -/
def GlobHolds (str pattern : SizedStr) : Prop :=
  (¬MarkLost str.1 pattern.1 ∧ GlobOk str pattern) ∨
    (MarkLost str.1 pattern.1 ∧ StarsFit pattern.1 ∧ str.1 ∈ language (glob pattern.1))

/-! ## The search -/

/-- The pattern up to the next star. -/
def upToStar (rest : Bytes) : Bytes := rest.takeWhile (· ≠ 42)

/-- The search has gone by a star whose place is no `int`, and no letters have differed
since then. -/
def FarPassed (str pattern rest tail : Bytes) : Prop :=
  ∃ before passed front seen, pattern = before ++ 42 :: (passed ++ rest) ∧
    str = front ++ (seen ++ tail) ∧ MarkFits before ∧ 2 ^ 31 ≤ before.length + 1 ∧
      Shortest str before front ∧ List.Forall₂ Fits (glob (passed.filter (· ≠ 42))) seen

/-- The piece from `mark` on has been found to fit the word before `p1`; and whether the
string has a part in the language depends on what is left. -/
structure Searching (str pattern : Bytes) (s : MatchState)
    (pre piece rest front word tail : Bytes) : Prop where
  pattern_eq : pattern = pre ++ piece ++ rest
  str_eq : str = front ++ word ++ tail
  mark : s.mark = toInt pre.length
  p2 : s.p2 = pre.length + piece.length
  p1 : s.p1 = front.length + word.length
  fits : List.Forall₂ Fits (glob piece) word
  search : str ∈ within (glob pattern) ↔ word ++ tail ∈ within (glob (piece ++ rest))
  first : s.p1 ≠ 0 ∨ s.p2 ≠ 0 → FirstFits str pattern
  empty : pattern = [] → s.p1 = 0
  starred : pre = [] ∨ ∃ before, pre = before ++ [42]
  found : ∀ more, front ++ more ∈ language (.run :: glob pre)
  earliest : Earliest str (glob pre ++ glob (piece ++ upToStar rest))
    (front.length + (piece ++ upToStar rest).length)
  far : 2 ^ 31 ≤ pre.length → FarPassed str pattern rest tail

theorem glob_append (front rest : Bytes) : glob (front ++ rest) = glob front ++ glob rest :=
  List.map_append

theorem token_eq_run_iff {c : UInt8} : token c = .run ↔ c = 42 := by
  unfold token
  split_ifs with hany hrun
  · simp [hany]
  · simp [hrun]
  · simp [hrun]

theorem fits_token_iff {c a : UInt8} (hc : c ≠ 42) :
    Fits (token c) a ↔ c = 63 ∨ a = c := by
  unfold token
  split_ifs with hany
  · exact iff_of_true (.any a) (.inl hany)
  · constructor
    · rintro ⟨⟩
      exact .inr rfl
    · rintro (h | rfl)
      · exact (hany h).elim
      · exact .letter a

theorem forall_ne_run_iff {piece : Bytes} : (∀ t ∈ glob piece, t ≠ .run) ↔ 42 ∉ piece := by
  simp only [glob, List.forall_mem_map, Ne, token_eq_run_iff]
  exact ⟨fun h hmem => h 42 hmem rfl, fun h c hc heq => h (heq ▸ hc)⟩

theorem not_mem_upToStar (rest : Bytes) : 42 ∉ upToStar rest := fun hmem => by
  simpa using List.mem_takeWhile_imp hmem

theorem letters_upToStar (rest : Bytes) : letters (glob (upToStar rest)) =
    (upToStar rest).length := by
  rw [letters_eq_length (forall_ne_run_iff.mpr (not_mem_upToStar rest)), glob, List.length_map]

theorem upToStar_append {piece : Bytes} (hpiece : 42 ∉ piece) (rest : Bytes) :
    upToStar (piece ++ rest) = piece ++ upToStar rest :=
  List.takeWhile_append_of_pos fun c hc => by simpa using ne_of_mem_of_not_mem hc hpiece

theorem upToStar_cons {c : UInt8} (hc : c ≠ 42) (rest : Bytes) :
    upToStar (c :: rest) = c :: upToStar rest := by
  simp [upToStar, hc]

theorem Searching.init (str pattern : Bytes) :
    Searching str pattern ⟨0, 0, 0⟩ [] [] pattern [] [] str where
  pattern_eq := rfl
  str_eq := rfl
  mark := rfl
  p2 := rfl
  p1 := rfl
  fits := .nil
  search := Iff.rfl
  first := by simp
  empty := fun _ => rfl
  starred := .inl rfl
  found := fun more => mem_run_cons.mpr ⟨more, [], by simp, mem_nil.mpr rfl⟩
  earliest := by
    have hletters := earliest_letters str (glob (upToStar pattern))
    rw [letters_upToStar] at hletters
    simpa [glob] using hletters
  far := fun hfar => absurd hfar (by decide)

theorem restOfPattern_eq_zero_iff (rest : Bytes) :
    restOfPattern rest = 0 ↔ ∀ t ∈ glob rest, t = .run := by
  induction rest with
  | nil => simp [restOfPattern, glob]
  | cons c rest ih =>
      rw [glob, List.map_cons, List.forall_mem_cons, token_eq_run_iff, restOfPattern]
      by_cases hc : c = 42
      · rw [if_neg (by simp [hc]), ih]
        simp [hc, glob]
      · simp [hc]

def Verdict (str pattern : Bytes) (r : MatchResult) : Prop :=
  if pattern = [] ∧ str ≠ [] then r = .outside
  else ∃ value, r = .ret value ∧
    (value = 0 ↔ FirstFits str pattern ∧ str ∈ within (glob pattern))

section passes

variable {str pattern : Bytes} {s : MatchState} {pre piece rest front word tail : Bytes}
  {a c : UInt8}

theorem Searching.size (h : Searching str pattern s pre piece rest front word tail) :
    str.length = s.p1 + tail.length ∧ pattern.length = s.p2 + rest.length := by
  rw [h.str_eq, h.pattern_eq, h.p1, h.p2]
  simp [Nat.add_assoc]

theorem Searching.drop (h : Searching str pattern s pre piece rest front word tail) :
    pattern.drop s.p2 = rest ∧ str.drop s.p1 = tail := by
  rw [h.pattern_eq, h.str_eq, h.p1, h.p2, ← List.length_append, ← List.length_append,
    List.drop_left, List.drop_left]
  exact ⟨rfl, rfl⟩

theorem Searching.same (h : Searching str pattern s pre piece rest front word tail) :
    piece.length = word.length := by
  rw [← h.fits.length_eq, glob, List.length_map]

theorem Searching.firstFits (h : Searching str pattern s pre piece (c :: rest) front word
    (a :: tail)) (hfits : token c = .run ∨ Fits (token c) a) : FirstFits str pattern := by
  by_cases hmoved : s.p1 ≠ 0 ∨ s.p2 ≠ 0
  · exact h.first hmoved
  · rw [not_or, not_not, not_not, h.p1, h.p2] at hmoved
    obtain ⟨hp1, hp2⟩ := hmoved
    have hpre : pre ++ piece = [] := by
      rw [← List.length_eq_zero_iff, List.length_append]
      exact hp2
    have hfront : front ++ word = [] := by
      rw [← List.length_eq_zero_iff, List.length_append]
      exact hp1
    rw [h.pattern_eq, h.str_eq, hpre, hfront]
    rintro c' hc' hany hrun a' ha'
    obtain rfl : c = c' := Option.some.inj hc'
    obtain rfl : a = a' := Option.some.inj ha'
    rcases hfits with hstar | hfits
    · exact (hrun (token_eq_run_iff.mp hstar)).elim
    · exact ((fits_token_iff hrun).mp hfits).resolve_left hany

theorem Searching.not_mem_piece (h : Searching str pattern s pre piece rest front word tail) :
    42 ∉ piece :=
  forall_ne_run_iff.mp (Fits.forall_ne_run h.fits)

theorem mem_language_of_fits (hfits : List.Forall₂ Fits (glob piece) word) :
    word ∈ language (glob piece) := by
  have hword := (append_mem_iff hfits (q := [])).mpr (mem_nil.mpr rfl)
  rwa [List.append_nil, List.append_nil] at hword

theorem Searching.found_word (h : Searching str pattern s pre piece rest front word tail) :
    front ++ word ∈ language (.run :: glob (pre ++ piece)) := by
  have hfound := h.found []
  rw [List.append_nil] at hfound
  rw [glob_append, ← List.cons_append]
  exact mem_append.mpr ⟨front, word, rfl, hfound, mem_language_of_fits h.fits⟩

/-- At a star the piece has been found at its first place. -/
theorem Searching.earliest_piece (h : Searching str pattern s pre piece (42 :: rest) front word
    tail) : Earliest str (glob (pre ++ piece)) (front ++ word).length := by
  have hearliest := h.earliest
  have hnil : upToStar (42 :: rest) = [] := rfl
  rwa [hnil, List.append_nil, ← glob_append, h.same, ← List.length_append] at hearliest

theorem MarkFits.append {before piece : Bytes} (h : MarkFits before) (hpiece : 42 ∉ piece) :
    MarkFits (before ++ piece) := by
  intro i hi
  rcases Nat.lt_or_ge i before.length with hlt | hle
  · rw [List.getElem?_append_left hlt] at hi
    exact h i hi
  · rw [List.getElem?_append_right hle] at hi
    exact absurd (List.mem_of_getElem? hi) hpiece

theorem markFits_of_length {before : Bytes} (hnear : before.length < 2 ^ 31) :
    MarkFits before := by
  intro i hi
  obtain ⟨hlt, -⟩ := List.getElem?_eq_some_iff.mp hi
  omega

theorem FarPassed.advance (h : FarPassed str pattern (c :: rest) (a :: tail))
    (hfits : Fits (token c) a) : FarPassed str pattern rest tail := by
  obtain ⟨before, passed, front, seen, hpattern, hstr, hmark, hfar, hshort, hseen⟩ := h
  have hc : c ≠ 42 := fun hc => hfits.ne_run (token_eq_run_iff.mpr hc)
  refine ⟨before, passed ++ [c], front, seen ++ [a], by simp [hpattern], by simp [hstr], hmark,
    hfar, hshort, ?_⟩
  rw [List.filter_append, glob_append]
  exact List.rel_append hseen (by simpa [hc, glob] using hfits)

theorem FarPassed.star (h : FarPassed str pattern (42 :: rest) tail) :
    FarPassed str pattern rest tail := by
  obtain ⟨before, passed, front, seen, hpattern, hstr, hmark, hfar, hshort, hseen⟩ := h
  exact ⟨before, passed ++ [42], front, seen, by simp [hpattern], hstr, hmark, hfar, hshort,
    by simpa using hseen⟩

theorem FarPassed.markLost (h : FarPassed str pattern (c :: rest) (a :: tail)) (hc : c ≠ 42)
    (hfits : ¬Fits (token c) a) (hfirst : FirstFits str pattern) : MarkLost str pattern := by
  obtain ⟨before, passed, front, seen, hpattern, hstr, hmark, hfar, hshort, hseen⟩ := h
  refine ⟨hfirst, before, _, front, _, hpattern, hstr, hmark, hfar, hshort, (c, a), ?_, hfits⟩
  have hlen := hseen.length_eq
  rw [glob, List.length_map] at hlen
  rw [List.filter_append, List.zip_append hlen, List.filter_cons_of_pos (by simpa using hc)]
  simp

theorem Searching.advance (h : Searching str pattern s pre piece (c :: rest) front word
    (a :: tail)) (hfits : Fits (token c) a) :
    Searching str pattern { s with p1 := s.p1 + 1, p2 := s.p2 + 1 } pre (piece ++ [c]) rest
      front (word ++ [a]) tail where
  pattern_eq := by simp [h.pattern_eq]
  str_eq := by simp [h.str_eq]
  mark := h.mark
  p2 := by simp [h.p2, Nat.add_assoc]
  p1 := by simp [h.p1, Nat.add_assoc]
  fits := by
    rw [glob_append]
    exact List.rel_append h.fits (.cons hfits .nil)
  search := by
    rw [h.search]
    simp
  first := fun _ => h.firstFits (.inr hfits)
  empty := by simp [h.pattern_eq]
  starred := h.starred
  found := h.found
  earliest := by
    have hearliest := h.earliest
    rw [upToStar_cons fun hc => hfits.ne_run (token_eq_run_iff.mpr hc)] at hearliest
    simpa using hearliest
  far := fun hfar => (h.far hfar).advance hfits

theorem Searching.star (h : Searching str pattern s pre piece (42 :: rest) front word
    (a :: tail)) :
    Searching str pattern { s with p2 := s.p2 + 1, mark := toInt (s.p2 + 1) }
      (pre ++ piece ++ [42]) [] rest (front ++ word) [] (a :: tail) where
  pattern_eq := by simp [h.pattern_eq]
  str_eq := by simp [h.str_eq]
  mark := by simp [h.p2, Nat.add_assoc]
  p2 := by simp [h.p2, Nat.add_assoc]
  p1 := by simp [h.p1]
  fits := .nil
  search := by
    rw [h.search, glob_append, glob, glob, List.map_cons, token_eq_run_iff.mpr rfl]
    exact within_run h.fits
  first := fun _ => h.firstFits (.inl (token_eq_run_iff.mpr rfl))
  empty := by simp [h.pattern_eq]
  starred := .inr ⟨_, rfl⟩
  found := fun more => by
    rw [glob_append _ [42], ← List.cons_append]
    exact mem_append.mpr ⟨_, more, rfl, h.found_word,
      mem_run_cons.mpr ⟨more, [], (List.append_nil _).symm, mem_nil.mpr rfl⟩⟩
  earliest := by
    have hrun := h.earliest_piece.run (q := glob (upToStar rest))
    rw [letters_upToStar] at hrun
    simpa [glob, token_eq_run_iff.mpr rfl] using hrun
  far := fun hfar => by
    by_cases hpre : 2 ^ 31 ≤ pre.length
    · exact (h.far hpre).star
    · rw [List.length_append, List.length_singleton] at hfar
      exact ⟨pre ++ piece, [], front ++ word, [], by simp [h.pattern_eq], by simp [h.str_eq],
        (markFits_of_length (by omega)).append h.not_mem_piece, hfar,
        ⟨h.found_word, h.earliest_piece⟩, .nil⟩

theorem Searching.back (h : Searching str pattern s pre piece (c :: rest) front word
    (a :: tail)) (hnear : pre.length < 2 ^ 31) (hc : c ≠ 42) (hfits : ¬Fits (token c) a)
    (hmoved : s.p1 ≠ 0 ∨ s.p2 ≠ 0) :
    Searching str pattern { s with p1 := front.length + 1, p2 := pre.length } pre []
      (piece ++ c :: rest) (front ++ [(word ++ a :: tail).head (by simp)]) []
      (word ++ a :: tail).tail where
  pattern_eq := by simp [h.pattern_eq]
  str_eq := by
    rw [List.append_nil, List.append_assoc, List.singleton_append, List.cons_head_tail,
      ← List.append_assoc, h.str_eq]
  mark := h.mark
  p2 := by simp
  p1 := by simp
  fits := .nil
  search := by
    rw [h.search, List.nil_append, List.nil_append, glob_append, glob, glob, List.map_cons]
    exact within_mismatch h.fits (fun hrun => hc (token_eq_run_iff.mp hrun)) hfits
  first := fun _ => h.first hmoved
  empty := by simp [h.pattern_eq]
  starred := h.starred
  found := fun more => by
    rw [List.append_assoc]
    exact h.found _
  earliest := by
    have hearliest := h.earliest
    have hnext := Earliest.mismatch (p := glob pre) (q := glob (upToStar rest))
      (forall_ne_run_iff.mpr (not_mem_upToStar rest)) h.fits
      (fun hrun => hc (token_eq_run_iff.mp hrun)) hfits h.str_eq
    rw [upToStar_cons hc] at hearliest
    rw [List.nil_append, upToStar_append h.not_mem_piece, upToStar_cons hc]
    simpa [glob] using hnext (by simpa [glob] using hearliest)
  far := fun hfar => absurd hfar (by omega)

/-! ## One pass -/

theorem sizeT_eq {n : ℕ} (hn : n < 2 ^ 64) : sizeT n = n := by
  unfold sizeT
  omega

theorem toInt_eq {n : ℕ} (hn : n < 2 ^ 31) : toInt n = n := by
  unfold toInt
  rw [Int.bmod_eq_of_le] <;> omega

theorem matchPass_end (h : Searching str pattern s pre piece rest front word tail)
    (hend : rest = [] ∨ tail = []) :
    matchPass str pattern s = .inl (matchEnd str pattern s) := by
  obtain ⟨hstr, hpattern⟩ := h.size
  refine if_neg fun hin => ?_
  rcases hend with rfl | rfl
  · rw [List.length_nil] at hpattern
    omega
  · rw [List.length_nil] at hstr
    omega

theorem matchPass_cons (h : Searching str pattern s pre piece (c :: rest) front word
    (a :: tail)) : matchPass str pattern s =
      if c = 63 then .inr { s with p1 := s.p1 + 1, p2 := s.p2 + 1 }
      else if c = 42 then .inr { s with p2 := s.p2 + 1, mark := toInt (s.p2 + 1) }
      else if a ≠ c then
        if s.p1 = 0 ∧ s.p2 = 0 then .inl (.ret (-1))
        else .inr { s with p1 := sizeT (s.p1 - (s.p2 - s.mark - 1)), p2 := sizeT s.mark }
      else .inr { s with p1 := s.p1 + 1, p2 := s.p2 + 1 } := by
  obtain ⟨hstr, hpattern⟩ := h.size
  rw [List.length_cons] at hstr hpattern
  have ha : str[s.p1]? = some a := by
    rw [← List.head?_drop, h.drop.2]
    rfl
  have hc : pattern[s.p2]? = some c := by
    rw [← List.head?_drop, h.drop.1]
    rfl
  rw [matchPass, if_pos (by omega), ha, hc]

theorem verdict_found (h : Searching str pattern s pre piece [] front word tail) :
    Verdict str pattern (matchEnd str pattern s) := by
  obtain ⟨hstr, hpattern⟩ := h.size
  rw [List.length_nil, Nat.add_zero] at hpattern
  unfold matchEnd Verdict
  rw [if_pos hpattern.symm]
  by_cases hempty : pattern = []
  · rw [h.empty hempty, ← hpattern, hempty]
    by_cases hnil : str = []
    · rw [if_neg (by simp [hnil]), if_pos (by simp [hnil])]
      exact ⟨0, rfl, iff_of_true rfl ⟨by simp [FirstFits], mem_within.mpr ⟨[], [], str, rfl,
        mem_nil.mpr rfl⟩⟩⟩
    · rw [if_pos ⟨rfl, hnil⟩, if_neg fun hzero => hnil
        (List.eq_nil_of_length_eq_zero hzero.symm)]
      rfl
  · have hp2 : s.p2 ≠ 0 := by
      rw [← hpattern]
      simpa using hempty
    have hzero : (0 : ℤ) = 0 ↔ FirstFits str pattern ∧ str ∈ within (glob pattern) := by
      rw [h.search, List.append_nil]
      exact iff_of_true rfl ⟨h.first (.inr hp2), within_found h.fits⟩
    rw [if_neg fun h => hempty h.1]
    split_ifs with hend
    · exact ⟨0, rfl, hzero⟩
    · obtain ⟨last, hlast⟩ := Nat.exists_eq_succ_of_ne_zero hp2
      have hdrop : pattern.drop (last + 1) = [] := by
        rw [← Nat.succ_eq_add_one, ← hlast]
        exact h.drop.1
      rw [hlast]
      dsimp only
      rw [hdrop]
      refine ⟨0, ?_, hzero⟩
      split_ifs <;> rfl

theorem verdict_left (h : Searching str pattern s pre piece (c :: rest) front word []) :
    Verdict str pattern (matchEnd str pattern s) := by
  obtain ⟨hstr, hpattern⟩ := h.size
  rw [List.length_cons] at hpattern
  have hempty : pattern ≠ [] := List.ne_nil_of_length_pos (by omega)
  have hfirst : FirstFits str pattern := by
    by_cases hp1 : s.p1 = 0
    · have hnil : str = [] := List.eq_nil_of_length_eq_zero (by simpa [hp1] using hstr)
      simp [FirstFits, hnil]
    · exact h.first (.inl hp1)
  have hend : s.p2 ≠ pattern.length := by omega
  unfold matchEnd Verdict
  rw [if_neg (fun hnil : pattern = [] ∧ str ≠ [] => hempty hnil.1), if_neg hend, h.drop.1]
  refine ⟨_, rfl, ?_⟩
  rw [restOfPattern_eq_zero_iff, h.search, List.append_nil, glob_append]
  exact ((and_iff_right hfirst).trans (within_end h.fits)).symm

theorem not_firstFits (h : Searching str pattern s pre piece (c :: rest) front word
    (a :: tail)) (hmoved : s.p1 = 0 ∧ s.p2 = 0) (hany : c ≠ 63) (hstar : c ≠ 42)
    (hne : a ≠ c) : ¬FirstFits str pattern := by
  have hpattern := h.drop.1
  have hstr := h.drop.2
  rw [hmoved.2, List.drop_zero] at hpattern
  rw [hmoved.1, List.drop_zero] at hstr
  subst hpattern hstr
  exact fun hfirst => hne (hfirst c rfl hany hstar a rfl)

theorem verdict_first (h : Searching str pattern s pre piece (c :: rest) front word
    (a :: tail)) (hfirst : ¬FirstFits str pattern) : Verdict str pattern (.ret (-1)) := by
  have hempty : pattern ≠ [] := by simp [h.pattern_eq]
  unfold Verdict
  rw [if_neg fun hnil => hempty hnil.1]
  exact ⟨-1, rfl, iff_of_false (by decide) fun hboth => hfirst hboth.1⟩

/-! ## The mark -/

theorem far_star_unique {before before' behind behind' : Bytes}
    (heq : before ++ 42 :: behind = before' ++ 42 :: behind') (hmark : MarkFits before)
    (hmark' : MarkFits before') (hfar : 2 ^ 31 ≤ before.length + 1)
    (hfar' : 2 ^ 31 ≤ before'.length + 1) : before = before' ∧ behind = behind' := by
  have hle : ∀ {b b' e e' : Bytes}, b ++ 42 :: e = b' ++ 42 :: e' → MarkFits b' →
      2 ^ 31 ≤ b.length + 1 → b'.length ≤ b.length := by
    intro b b' e e' heq hmark hfar
    by_contra hlt
    have hat : b'[b.length]? = some 42 := by
      have hside : (b' ++ 42 :: e')[b.length]? = b'[b.length]? :=
        List.getElem?_append_left (by omega)
      rw [← hside, ← heq, List.getElem?_append_right le_rfl, Nat.sub_self]
      rfl
    have hfits := hmark _ hat
    omega
  have hlen := le_antisymm (hle heq.symm hmark hfar') (hle heq hmark' hfar)
  obtain ⟨hbefore, hbehind⟩ := List.append_inj heq hlen
  exact ⟨hbefore, (List.cons.inj hbehind).2⟩

theorem Shortest.unique {before front front' tail tail' : Bytes}
    (heq : front ++ tail = front' ++ tail') (h : Shortest (front ++ tail) before front)
    (h' : Shortest (front ++ tail) before front') : front = front' ∧ tail = tail' := by
  have hle := h.earliest front' tail' heq h'.found
  have hle' := h'.earliest front tail rfl h.found
  exact List.append_inj heq (le_antisymm hle hle')

theorem not_mismatch_of_fits {passed seen : Bytes}
    (hseen : List.Forall₂ Fits (glob (passed.filter (· ≠ 42))) seen)
    (hend : rest = [] ∨ tail = []) : ¬Mismatch (passed ++ rest) (seen ++ tail) := by
  rintro ⟨pair, hpair, hnot⟩
  have hlen := hseen.length_eq
  rw [glob, List.length_map] at hlen
  have hnil : (rest.filter (· ≠ 42)).zip tail = [] := by
    rcases hend with rfl | rfl
    · rfl
    · exact List.zip_nil_right
  rw [List.filter_append, List.zip_append hlen, hnil, List.append_nil] at hpair
  rw [glob, List.forall₂_map_left_iff, List.forall₂_iff_zip] at hseen
  exact hnot (hseen.2 hpair)

/-- A search that comes to the end of one of the two has lost no mark. -/
theorem Searching.not_markLost (h : Searching str pattern s pre piece rest front word tail)
    (hend : rest = [] ∨ tail = []) : ¬MarkLost str pattern := by
  rintro ⟨-, before, behind, front', tail', hpattern, hstr, hmark, hfar, hshort, hmismatch⟩
  by_cases hpre : 2 ^ 31 ≤ pre.length
  · obtain ⟨before', passed, front'', seen, hpattern', hstr', hmark', hfar', hshort', hseen⟩ :=
      h.far hpre
    obtain ⟨rfl, rfl⟩ := far_star_unique (hpattern.symm.trans hpattern') hmark hmark' hfar hfar'
    rw [hstr] at hshort hshort'
    obtain ⟨rfl, rfl⟩ := Shortest.unique (hstr.symm.trans hstr') hshort hshort'
    exact not_mismatch_of_fits hseen hend hmismatch
  · have hfits := (markFits_of_length (Nat.lt_of_not_le hpre)).append h.not_mem_piece
    have hat : pattern[before.length]? = some 42 := by
      rw [hpattern, List.getElem?_append_right le_rfl, Nat.sub_self]
      rfl
    rcases hend with rfl | rfl
    · have hplace := hfits before.length (by rw [← hat, h.pattern_eq, List.append_nil])
      omega
    · -- the star is behind the piece, and the piece does not end in the string
      have hcut : pattern = pre ++ piece ++ upToStar rest ++ rest.dropWhile (· ≠ 42) := by
        rw [List.append_assoc, upToStar, List.takeWhile_append_dropWhile, ← h.pattern_eq]
      have hlong : (pre ++ piece ++ upToStar rest).length ≤ before.length := by
        by_contra hlt
        have hside : pattern[before.length]? =
            (pre ++ piece ++ upToStar rest)[before.length]? := by
          rw [hcut]
          exact List.getElem?_append_left (by omega)
        have hplace := hfits.append (not_mem_upToStar rest) before.length (hside ▸ hat)
        omega
      obtain ⟨more, rfl⟩ := List.prefix_of_prefix_length_le ⟨_, hcut.symm⟩ ⟨_, hpattern.symm⟩
        hlong
      have hfound := hshort.found
      rw [glob_append, ← List.cons_append, mem_append] at hfound
      obtain ⟨y, z, rfl, hy, -⟩ := hfound
      rw [List.append_assoc, glob_append] at hy
      have hearliest := h.earliest y (z ++ tail') (by rw [hstr, List.append_assoc]) hy
      have hsize := h.size.1
      have hsame := h.same
      obtain ⟨pair, hpair, -⟩ := hmismatch
      have htail := List.length_pos_of_mem (List.of_mem_zip hpair).2
      rw [h.p1, hstr] at hsize
      simp only [List.length_append, List.length_nil] at hearliest hsize
      omega

theorem matchPass_of_fits (h : Searching str pattern s pre piece (c :: rest) front word
    (a :: tail)) (hfits : Fits (token c) a) :
    matchPass str pattern s = .inr { s with p1 := s.p1 + 1, p2 := s.p2 + 1 } := by
  have hstar : c ≠ 42 := fun hc => hfits.ne_run (token_eq_run_iff.mpr hc)
  rw [matchPass_cons h]
  rcases (fits_token_iff hstar).mp hfits with hany | hsame
  · rw [if_pos hany]
  · rw [if_neg hstar, if_neg (not_not.mpr hsame), ite_self]

theorem matchPass_of_star
    (h : Searching str pattern s pre piece (42 :: rest) front word (a :: tail)) :
    matchPass str pattern s = .inr { s with p2 := s.p2 + 1, mark := toInt (s.p2 + 1) } := by
  rw [matchPass_cons h, if_neg (by decide), if_pos rfl]

theorem Searching.mark_eq (h : Searching str pattern s pre piece rest front word tail)
    (hnear : pre.length < 2 ^ 31) : s.mark = pre.length := by
  rw [h.mark, toInt_eq hnear]

theorem matchPass_of_not_fits (hsize : str.length < 2 ^ 64)
    (h : Searching str pattern s pre piece (c :: rest) front word (a :: tail))
    (hnear : pre.length < 2 ^ 31) (hany : c ≠ 63) (hstar : c ≠ 42) (hne : a ≠ c)
    (hmoved : ¬(s.p1 = 0 ∧ s.p2 = 0)) :
    matchPass str pattern s =
      .inr { s with p1 := front.length + 1, p2 := pre.length } := by
  obtain ⟨hstr, hpattern⟩ := h.size
  rw [List.length_cons] at hstr hpattern
  have hp1 : (s.p1 : ℤ) - (s.p2 - s.mark - 1) = (front.length + 1 : ℕ) := by
    rw [h.p1, h.p2, h.mark_eq hnear, h.same]
    push_cast
    ring
  have hfar : front.length + 1 < 2 ^ 64 := by
    have := h.p1
    omega
  have hback : sizeT s.mark = pre.length := by rw [h.mark_eq hnear, sizeT_eq (by omega)]
  rw [matchPass_cons h, if_neg hany, if_neg hstar, if_pos hne, if_neg hmoved, hp1,
    sizeT_eq hfar, hback]

/-- From every state of the search one pass comes to the right result, or to a state that is
further on, or the mark is lost. -/
theorem matchPass_progress (hsize : str.length < 2 ^ 64)
    (h : Searching str pattern s pre piece rest front word tail) :
    (∃ r, matchPass str pattern s = .inl r ∧ Verdict str pattern r ∧ ¬MarkLost str pattern) ∨
      (∃ s', matchPass str pattern s = .inr s' ∧
        ∃ pre' piece' rest' front' word' tail',
          Searching str pattern s' pre' piece' rest' front' word' tail' ∧
            (pre.length < pre'.length ∨ pre.length = pre'.length ∧
              (front.length < front'.length ∨ front.length = front'.length ∧
                piece.length < piece'.length))) ∨
      (MarkLost str pattern ∧ 2 ^ 31 ≤ pre.length ∧ s.p2 < pattern.length ∧
        ∃ p1, matchPass str pattern s = .inr { s with p1 := p1, p2 := sizeT s.mark }) := by
  cases rest with
  | nil => exact .inl ⟨_, matchPass_end h (.inl rfl), verdict_found h, h.not_markLost (.inl rfl)⟩
  | cons c rest =>
      cases tail with
      | nil =>
          exact .inl ⟨_, matchPass_end h (.inr rfl), verdict_left h, h.not_markLost (.inr rfl)⟩
      | cons a tail =>
          by_cases hstar : c = 42
          · subst hstar
            refine .inr (.inl ⟨_, matchPass_of_star h, _, _, _, _, _, _, h.star, .inl ?_⟩)
            rw [List.length_append, List.length_append, List.length_singleton]
            omega
          · by_cases hfits : Fits (token c) a
            · refine .inr (.inl
                ⟨_, matchPass_of_fits h hfits, _, _, _, _, _, _, h.advance hfits, ?_⟩)
              simp
            · have hletters := hfits
              rw [fits_token_iff hstar, not_or] at hletters
              obtain ⟨hany, hne⟩ := hletters
              by_cases hmoved : s.p1 = 0 ∧ s.p2 = 0
              · left
                have hfirst := not_firstFits h hmoved hany hstar hne
                refine ⟨.ret (-1), ?_, verdict_first h hfirst, fun hlost => hfirst hlost.first⟩
                rw [matchPass_cons h, if_neg hany, if_neg hstar, if_pos hne, if_pos hmoved]
              · right
                rcases Nat.lt_or_ge pre.length (2 ^ 31) with hnear | hfar
                · left
                  refine ⟨_, matchPass_of_not_fits hsize h hnear hany hstar hne hmoved,
                    _, _, _, _, _, _, h.back hnear hstar hfits (not_and_or.mp hmoved), ?_⟩
                  simp
                · right
                  have hfirst := h.first (not_and_or.mp hmoved)
                  refine ⟨(h.far hfar).markLost hstar hfits hfirst, hfar, ?_,
                    sizeT (s.p1 - (s.p2 - s.mark - 1)), ?_⟩
                  · rw [h.size.2, List.length_cons]
                    omega
                  · rw [matchPass_cons h, if_neg hany, if_neg hstar, if_pos hne, if_neg hmoved]

/-- How far the search has to go: behind the mark, behind the place where the piece is
looked for, and in the piece. -/
def ahead (str pattern : Bytes) (s : MatchState) : ℕ ×ₗ ℕ ×ₗ ℕ :=
  toLex (pattern.length - s.mark.toNat,
    toLex (str.length - (s.p1 + s.mark.toNat - s.p2), pattern.length - s.p2))

theorem Searching.ahead_eq (h : Searching str pattern s pre piece rest front word tail)
    (hnear : pre.length < 2 ^ 31) : ahead str pattern s = toLex (pattern.length - pre.length,
      toLex (str.length - front.length, pattern.length - pre.length - piece.length)) := by
  have hfront : s.p1 + pre.length - s.p2 = front.length := by
    rw [h.p1, h.p2, h.same]
    omega
  rw [ahead, h.mark_eq hnear, Int.toNat_natCast, hfront, h.p2, Nat.sub_add_eq]

end passes

/-! ## All passes -/

def InSearch (str pattern : Bytes) (s : MatchState) : Prop :=
  ∃ pre piece rest front word tail, Searching str pattern s pre piece rest front word tail

/-- Where all places are `int`s, a pass leaves or keeps the search up and has less ahead. -/
theorem InSearch.pass {str pattern : Bytes} (hsize : str.length < 2 ^ 64)
    (hlen : pattern.length < 2 ^ 31) {s : MatchState} (h : InSearch str pattern s) :
    (∃ r, matchPass str pattern s = .inl r) ∨
      ∃ s', matchPass str pattern s = .inr s' ∧ InSearch str pattern s' ∧
        ahead str pattern s' < ahead str pattern s := by
  obtain ⟨pre, piece, rest, front, word, tail, h⟩ := h
  have hpre := h.size.2
  rw [h.p2] at hpre
  rcases matchPass_progress hsize h with ⟨r, hleave, -⟩ |
    ⟨s', hpass, pre', piece', rest', front', word', tail', h', hfurther⟩ | ⟨-, hfar, -⟩
  · exact .inl ⟨r, hleave⟩
  · refine .inr ⟨s', hpass, ⟨_, _, _, _, _, _, h'⟩, ?_⟩
    have hpattern := h'.size.2
    have hstr := h'.size.1
    rw [h'.p2] at hpattern
    rw [h'.p1] at hstr
    rw [h.ahead_eq (by omega), h'.ahead_eq (by omega), Prod.Lex.toLex_lt_toLex,
      Prod.Lex.toLex_lt_toLex]
    dsimp only
    omega
  · omega

theorem sizeT_toInt_of_far {n : ℕ} (hfar : 2 ^ 31 ≤ n) (hn : n < 2 ^ 32) :
    2 ^ 64 - 2 ^ 31 ≤ sizeT (toInt n) := by
  have hmark : toInt n = n - 2 ^ 32 := by
    unfold toInt
    have hmod := Int.bmod_emod (x := (n : ℤ)) (m := 2 ^ 32)
    have hlow := Int.le_bmod (x := (n : ℤ)) (m := 2 ^ 32) (by decide)
    have hlt := Int.bmod_lt (x := (n : ℤ)) (m := 2 ^ 32) (by decide)
    norm_num at hmod hlow hlt ⊢
    omega
  unfold sizeT
  omega

/-- Behind the pattern the loop is left with 0. -/
theorem matchPass_behind {str pattern : Bytes} {s : MatchState}
    (hp2 : pattern.length ≤ s.p2) (hpos : 0 < s.p2) :
    matchPass str pattern s = .inl (.ret 0) := by
  rw [matchPass, if_neg (by omega), matchEnd]
  obtain ⟨last, hlast⟩ := Nat.exists_eq_succ_of_ne_zero hpos.ne'
  rw [List.drop_of_length_le hp2, hlast]
  dsimp only
  rw [List.drop_of_length_le (by omega)]
  split_ifs <;> rfl

/-- The search ends with the right result, or with 0 where the mark is lost. -/
theorem match_ends {str pattern : Bytes} (hsize : str.length < 2 ^ 64)
    (hsize' : pattern.length < 2 ^ 64) (hfit : MarkLost str pattern → StarsFit pattern) :
    ∃ r, Ends (fun _ => matchPass str pattern) 0 ⟨0, 0, 0⟩ r ∧
      (¬MarkLost str pattern → Verdict str pattern r) ∧ (MarkLost str pattern → r = .ret 0) := by
  let inv : ℕ ×ₗ ℕ ×ₗ ℕ → MatchState → Prop := fun v s =>
    (∃ pre piece rest front word tail, Searching str pattern s pre piece rest front word tail ∧
      v = toLex (pattern.length - pre.length, toLex (str.length - front.length,
        pattern.length - pre.length - piece.length))) ∨
    (MarkLost str pattern ∧ pattern.length ≤ s.p2 ∧ 0 < s.p2)
  have hinit : inv _ ⟨0, 0, 0⟩ := .inl ⟨_, _, _, _, _, _, .init str pattern, rfl⟩
  refine Ends.of_variant (fun k v s (hs : inv v s) => ?_) 0 hinit
  rcases hs with ⟨pre, piece, rest, front, word, tail, h, rfl⟩ | ⟨hlost, hp2, hpos⟩
  · have hpre := h.size.2
    rw [h.p2] at hpre
    rcases matchPass_progress hsize h with ⟨r, hleave, hverdict, hkept⟩ |
      ⟨s', hpass, pre', piece', rest', front', word', tail', h', hfurther⟩ |
      ⟨hlost, hfar, hinside, p1, hpass⟩
    · exact .inl ⟨r, hleave, fun _ => hverdict, fun hlost => absurd hlost hkept⟩
    · refine .inr ⟨s', hpass, _, ?_, .inl ⟨_, _, _, _, _, _, h', rfl⟩⟩
      have hpattern := h'.size.2
      have hstr := h'.size.1
      rw [h'.p2] at hpattern
      rw [h'.p1] at hstr
      rw [Prod.Lex.toLex_lt_toLex, Prod.Lex.toLex_lt_toLex]
      dsimp only
      omega
    · obtain ⟨hstars, hlength⟩ := hfit hlost
      obtain ⟨before, rfl⟩ := h.starred.resolve_left fun hnil => by
        rw [hnil] at hfar
        exact absurd hfar (by decide)
      have hplace := hstars before.length (by simp [h.pattern_eq])
      have hbehind := sizeT_toInt_of_far hfar (by simpa using hplace)
      rw [← h.mark] at hbehind
      refine .inr ⟨_, hpass, toLex (0, toLex (0, 0)), ?_, .inr ⟨hlost, ?_, ?_⟩⟩
      · rw [h.p2] at hinside
        rw [Prod.Lex.toLex_lt_toLex]
        dsimp only
        omega
      · dsimp only
        omega
      · dsimp only
        omega
  · exact .inl ⟨_, matchPass_behind hp2 hpos, fun hkept => absurd hlost hkept, fun _ => rfl⟩

theorem StarsFit.of_length {pattern : Bytes} (hlen : pattern.length < 2 ^ 31) :
    StarsFit pattern := by
  refine ⟨fun i hi => ?_, by omega⟩
  obtain ⟨hlt, -⟩ := List.getElem?_eq_some_iff.mp hi
  omega

theorem firstFits_of_mem {str pattern : Bytes} (hmem : str ∈ language (glob pattern)) :
    FirstFits str pattern := by
  rintro c hc hany hstar a ha
  cases pattern with
  | nil => cases hc
  | cons c' rest =>
      obtain rfl : c' = c := Option.some.inj hc
      have hrun : token c' ≠ .run := fun h => hstar (token_eq_run_iff.mp h)
      obtain ⟨b, v, rfl, hb, -⟩ := (mem_cons_of_ne_run hrun).mp hmem
      obtain rfl : b = a := Option.some.inj ha
      exact ((fits_token_iff hstar).mp hb).resolve_left hany

theorem globOk_iff (str pattern : SizedStr) : GlobOk str pattern ↔
    (pattern.1 = [] → str.1 = []) ∧
      (FirstFits str.1 pattern.1 ∧ str.1 ∈ within (glob pattern.1) ↔
        str.1 ∈ language (glob pattern.1)) := by
  constructor
  · intro hok
    refine ⟨hok.nonempty, ?_, fun hmem => ⟨firstFits_of_mem hmem, language_le_within hmem⟩⟩
    rintro ⟨hfirst, hwithin⟩
    obtain ⟨front, part, back, hstr, hpart⟩ := mem_within.mp hwithin
    exact hok.whole hfirst front part back hstr hpart
  · rintro ⟨hnonempty, hiff⟩
    refine ⟨hnonempty, fun hfirst front part back hstr hpart => ?_⟩
    exact hiff.mp ⟨hfirst, mem_within.mpr ⟨front, part, back, hstr, hpart⟩⟩

/-- Where the mark is not lost, a part of the string, behind a fitting first letter, has to
be enough. -/
theorem globLaw_iff_of_kept (str pattern : SizedStr) (hkept : ¬MarkLost str.1 pattern.1) :
    GlobLaw str pattern ↔ GlobOk str pattern := by
  obtain ⟨r, hends, hverdict, -⟩ := match_ends str.2 pattern.2 fun hlost => absurd hlost hkept
  have hverdict := hverdict hkept
  rw [globOk_iff]
  unfold Verdict at hverdict
  split_ifs at hverdict with hempty
  · refine iff_of_false ?_ fun hok => hempty.2 (hok.1 hempty.1)
    rintro ⟨value, hvalue, -⟩
    have hsame : MatchResult.ret value = r := Ends.unique hvalue hends
    rw [hverdict] at hsame
    cases hsame
  · obtain ⟨value, rfl, hvalue⟩ := hverdict
    have hnonempty : pattern.1 = [] → str.1 = [] := fun hnil =>
      not_not.mp fun hstr => hempty ⟨hnil, hstr⟩
    rw [← hvalue, and_iff_right hnonempty]
    constructor
    · rintro ⟨value', hvalue', hlaw⟩
      have hsame : MatchResult.ret value' = .ret value := Ends.unique hvalue' hends
      rw [MatchResult.ret.injEq] at hsame
      rwa [hsame] at hlaw
    · exact fun hlaw => ⟨value, hends, hlaw⟩

/-- Where it is lost the result is 0, whatever the string is. -/
theorem globLaw_iff_of_lost (str pattern : SizedStr) (hlost : MarkLost str.1 pattern.1)
    (hfit : StarsFit pattern.1) :
    GlobLaw str pattern ↔ str.1 ∈ language (glob pattern.1) := by
  obtain ⟨r, hends, -, hzero⟩ := match_ends str.2 pattern.2 fun _ => hfit
  rw [hzero hlost] at hends
  constructor
  · rintro ⟨value, hvalue, hlaw⟩
    have hsame : MatchResult.ret value = .ret 0 := Ends.unique hvalue hends
    rw [MatchResult.ret.injEq] at hsame
    exact hlaw.mp hsame
  · exact fun hmem => ⟨0, hends, iff_of_true rfl hmem⟩

/-- The function says whether the string is in the language of the pattern exactly for
these; left open is only where a mark is lost that goes round the `int` as a whole. -/
theorem globLaw_iff_globHolds (str pattern : SizedStr) :
    (GlobHolds str pattern → GlobLaw str pattern) ∧
      (GlobLaw str pattern → GlobHolds str pattern ∨
        (MarkLost str.1 pattern.1 ∧ ¬StarsFit pattern.1)) := by
  constructor
  · rintro (⟨hkept, hok⟩ | ⟨hlost, hfit, hmem⟩)
    · exact (globLaw_iff_of_kept str pattern hkept).mpr hok
    · exact (globLaw_iff_of_lost str pattern hlost hfit).mpr hmem
  · intro hlaw
    by_cases hlost : MarkLost str.1 pattern.1
    · by_cases hfit : StarsFit pattern.1
      · exact .inl (.inr ⟨hlost, hfit, (globLaw_iff_of_lost str pattern hlost hfit).mp hlaw⟩)
      · exact .inr ⟨hlost, hfit⟩
    · exact .inl (.inl ⟨hlost, (globLaw_iff_of_kept str pattern hlost).mp hlaw⟩)

/-- `ab` and `a`: the pattern is at its end, and what is left of the string does not
count. -/
theorem not_globLaw_rest : ¬ ∀ str pattern : SizedStr, GlobLaw str pattern := by
  intro hall
  obtain ⟨value, hvalue, hlaw⟩ := hall ⟨[97, 98], by decide⟩ ⟨[97], by decide⟩
  have hends : ∃ fuel, matchWithAsteriskW fuel (some ⟨[97, 98], by decide⟩)
      (some ⟨[97], by decide⟩) = some (.ret 0) := ⟨2, by decide⟩
  have hsame : MatchResult.ret value = .ret 0 := Ends.unique hvalue hends
  rw [MatchResult.ret.injEq] at hsame
  have hlen := length_of_mem (by decide) (hlaw.mp hsame)
  exact absurd hlen (by decide)

/-! ## Going back -/

/-- `p1 -= p2 - mark - 1`, one operation after the other. -/
def goneBack (s : MatchState) : ℕ :=
  sizeT (s.p1 - sizeT (sizeT (s.p2 - sizeT s.mark) - 1))

theorem goneBack_eq (s : MatchState) : goneBack s = sizeT (s.p1 - (s.p2 - s.mark - 1)) := by
  unfold goneBack sizeT
  omega

def MatchPass (str pattern : Bytes) (s s' : MatchState) : Prop :=
  matchPass str pattern s = .inr s'

/-- The letters that are compared differ, and they are not the two first ones. -/
def GoesBack (str pattern : Bytes) (s : MatchState) : Prop :=
  ∃ a c, str[s.p1]? = some a ∧ pattern[s.p2]? = some c ∧ c ≠ 63 ∧ c ≠ 42 ∧ a ≠ c ∧
    ¬(s.p1 = 0 ∧ s.p2 = 0)

/-- The indices are within their strings, and going back does not leave the string: the
`size_t` is what the integers give. -/
structure InRange (str pattern : Bytes) (s : MatchState) : Prop where
  mark : 0 ≤ s.mark ∧ s.mark ≤ s.p2
  p1 : s.p1 ≤ str.length
  p2 : s.p2 ≤ pattern.length
  back : GoesBack str pattern s →
    matchPass str pattern s = .inr { s with p1 := goneBack s, p2 := s.mark.toNat } ∧
      (goneBack s : ℤ) = s.p1 - (s.p2 - s.mark) + 1 ∧ goneBack s ≤ str.length

theorem GoesBack.searching {str pattern : Bytes} {s : MatchState}
    {pre piece rest front word tail : Bytes} (h : GoesBack str pattern s)
    (hsearch : Searching str pattern s pre piece rest front word tail) :
    ∃ a tail' c rest', tail = a :: tail' ∧ rest = c :: rest' ∧ c ≠ 63 ∧ c ≠ 42 ∧ a ≠ c ∧
      ¬(s.p1 = 0 ∧ s.p2 = 0) := by
  obtain ⟨a, c, ha, hc, hletters⟩ := h
  rw [← List.head?_drop, hsearch.drop.2, List.head?_eq_some_iff] at ha
  rw [← List.head?_drop, hsearch.drop.1, List.head?_eq_some_iff] at hc
  obtain ⟨tail', htail⟩ := ha
  obtain ⟨rest', hrest⟩ := hc
  exact ⟨a, tail', c, rest', htail, hrest, hletters⟩

theorem InSearch.inRange {str pattern : Bytes} (hsize : str.length < 2 ^ 64)
    (hlen : pattern.length < 2 ^ 31) {s : MatchState} (h : InSearch str pattern s) :
    InRange str pattern s := by
  obtain ⟨pre, piece, rest, front, word, tail, h⟩ := h
  obtain ⟨hstr, hpattern⟩ := h.size
  have hp1 := h.p1
  have hp2 := h.p2
  have hnear : pre.length < 2 ^ 31 := by omega
  have hmark := h.mark_eq hnear
  refine ⟨⟨by omega, by omega⟩, by omega, by omega, fun hback => ?_⟩
  obtain ⟨a, tail', c, rest', rfl, rfl, hany, hstar, hne, hmoved⟩ := hback.searching h
  rw [List.length_cons] at hstr
  have hfront : (s.p1 : ℤ) - (s.p2 - s.mark - 1) = (front.length + 1 : ℕ) := by
    have := h.same
    omega
  have hgone : goneBack s = front.length + 1 := by
    rw [goneBack_eq, hfront, sizeT_eq (by omega)]
  refine ⟨?_, by omega, by omega⟩
  rw [matchPass_of_not_fits hsize h hnear hany hstar hne hmoved, hgone, hmark,
    Int.toNat_natCast]

/-- The loop of `MatchWithAsteriskW` ends: the indices stay in their strings also where one
goes back, and every pass has less ahead than the one before. -/
theorem matchWithAsteriskW_ends (str pattern : SizedStr) (hlen : pattern.1.length < 2 ^ 31) :
    (∀ s, Relation.ReflTransGen (MatchPass str.1 pattern.1) ⟨0, 0, 0⟩ s →
      InRange str.1 pattern.1 s ∧ ∀ s', MatchPass str.1 pattern.1 s s' →
        ahead str.1 pattern.1 s' < ahead str.1 pattern.1 s) ∧
      ∃ fuel r, matchWithAsteriskW fuel (some str) (some pattern) = some r := by
  have hpass : ∀ {s s' : MatchState}, InSearch str.1 pattern.1 s →
      MatchPass str.1 pattern.1 s s' →
        InSearch str.1 pattern.1 s' ∧ ahead str.1 pattern.1 s' < ahead str.1 pattern.1 s := by
    intro s s' h hs'
    rcases h.pass str.2 hlen with ⟨r, hleave⟩ | ⟨s'', hs'', hnext⟩
    · cases hs'.symm.trans hleave
    · cases hs'.symm.trans hs''
      exact hnext
  refine ⟨fun s hs => ?_, ?_⟩
  · have hsearch : InSearch str.1 pattern.1 s := by
      induction hs with
      | refl => exact ⟨_, _, _, _, _, _, .init str.1 pattern.1⟩
      | tail _ hs' ih => exact (hpass ih hs').1
    exact ⟨hsearch.inRange str.2 hlen, fun s' hs' => (hpass hsearch hs').2⟩
  · obtain ⟨r, ⟨fuel, hfuel⟩, -⟩ := match_ends str.2 pattern.2 fun _ => .of_length hlen
    exact ⟨fuel, r, hfuel⟩

theorem matchWithAsteriskW_ends_aab :
    ∃ fuel r, matchWithAsteriskW fuel (some ⟨[97, 97, 98], by decide⟩)
      (some ⟨[42, 97, 98], by decide⟩) = some r :=
  (matchWithAsteriskW_ends ⟨[97, 97, 98], by decide⟩ ⟨[42, 97, 98], by decide⟩
    (by decide)).2

end CommonComponent
