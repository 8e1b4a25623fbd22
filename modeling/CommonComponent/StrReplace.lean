import CommonComponent.HttpLines
import CommonComponent.StrPrintf
import CommonComponent.TextReplacement
import Mathlib.Data.Prod.Lex
import Mathlib.Tactic

/-!
# Replacing in place

`StrReplace` searches on from `pos - search.size() + replace.size() + 1`.  The text that has
been put in ends at `pos + replace.size()`, and so the last letters of it, all but one as
many as the search string has, are searched again.  When there are not so many letters
before that end, the place wraps and nothing more is found.
-/

namespace CommonComponent

open FormatBuffer FueledLoop TextReplacement

/-- No object has more bytes than a `ptrdiff_t` can count. -/
abbrev CString := {bytes : Bytes // 0 ∉ bytes ∧ bytes.length < 2 ^ 63}

structure ReplaceState where
  result : Bytes
  pos : ℕ
deriving DecidableEq

inductive ReplaceResult
  | lengthError
  | printed (r : PrintResult)
deriving DecidableEq

/-- `std::string::max_size()`. -/
def maxSize : ℕ := 2 ^ 63 - 1

/-- `none` is a `std::length_error`. -/
def replacePass (search replace : Bytes) (s : ReplaceState) : Option Bytes ⊕ ReplaceState :=
  match find s.result search s.pos with
  | none => .inl (some s.result)
  | some p =>
      let result := s.result.take p ++ replace ++ s.result.drop (p + search.length)
      if maxSize < result.length then .inl none
      else .inr ⟨result, sizeT (p - search.length + replace.length + 1)⟩

def replaceLoop (fuel : ℕ) (source search replace : Bytes) : Option (Option Bytes) :=
  loop (fun _ => replacePass search replace) fuel 0 ⟨source, 0⟩

/-- Without a result the fuel is not enough. -/
def strReplace (fuel : ℕ) (buf : Bytes) (source search replace : CString) :
    Option ReplaceResult :=
  (replaceLoop fuel source.1 search.1 replace.1).map fun
    | none => .lengthError
    | some result => .printed (strPrintf buf (cStr result))

/-! ## What the result is to be -/

/-- Every occurrence is replaced once, from the left, and the text is cut to the buffer.  A
buffer without room for a letter is left as it is. -/
def ReplaceLaw (buf : Bytes) (source search replace : CString) : Prop :=
  let text := replaceAll search.1 replace.1 0 source.1
  ∃ fuel, strReplace fuel buf source search replace =
    some (.printed (.ret (min text.length (buf.length - 1) : ℕ)
      (if buf.length < 2 then buf else snprintf 0 buf text)))

/-- Searching on behind `done` as the function does finds what is next in the rest: the word
does not stand across the end of `done`, or not in the rest where the place wraps. -/
def Resumes (search done rest : Bytes) : Prop :=
  if done.length + 1 < search.length then ∀ i, ¬search <+: rest.drop i
  else ∀ i < done.length, done.length + 1 ≤ i + search.length →
    ¬search <+: (done ++ rest).drop i

/-- The search goes on as it should behind each replacement. -/
def ResumesAll (source search replace : Bytes) : Prop :=
  ∀ done front back, Scan search replace source done (front ++ search ++ back) →
    First search front back → Resumes search (done ++ front ++ replace) back

/-- The text that is meant is one that a string can have and that can be printed. -/
structure ReplaceFits (size : ℕ) (source search replace : CString) : Prop where
  fits : (replaceAll search.1 replace.1 0 source.1).length ≤ maxSize
  prints : size < 2 ∨ Prints size (replaceAll search.1 replace.1 0 source.1).length

/-- What is put in does not end as the search string begins, and is not so short that the
place to search on from is before the text. -/
def NeverOverlaps (search replace : Bytes) : Prop :=
  search.length ≤ replace.length + 1 ∧
    ∀ front rest, front ≠ [] → rest ≠ [] → search = front ++ rest → ¬front <:+ replace

/-- The two are all right for every source and every buffer. -/
def PairLaw (search replace : CString) : Prop :=
  ∀ buf source, ReplaceFits buf.length source search replace →
    ReplaceLaw buf source search replace

/-! ## The loop ends -/

/-- How many places are left to be searched. -/
def ReplaceState.left (s : ReplaceState) : ℕ := s.result.length + 1 - s.pos

variable {search replace : Bytes} {s : ReplaceState}

theorem replacePass_none (h : find s.result search s.pos = none) :
    replacePass search replace s = .inl (some s.result) := by
  simp only [replacePass, h]

theorem replacePass_some (replace : Bytes) {p : ℕ} (h : find s.result search s.pos = some p)
    (hfits : (s.result.take p ++ replace ++ s.result.drop (p + search.length)).length ≤ maxSize) :
    replacePass search replace s =
      .inr ⟨s.result.take p ++ replace ++ s.result.drop (p + search.length),
        sizeT (p - search.length + replace.length + 1)⟩ := by
  simp only [replacePass, h]
  exact if_neg (Nat.not_lt.mpr hfits)

/-- Where it goes on, and that this is nearer to the end or behind it. -/
theorem sizeT_resume {len p : ℕ} (hat : p + search.length ≤ len)
    (hlen : len - search.length + replace.length ≤ maxSize) :
    len - search.length + replace.length + 1 -
      sizeT (p - search.length + replace.length + 1) ≤ len - p := by
  unfold sizeT maxSize at *
  omega

theorem length_replaced (replace : Bytes) {text : Bytes} {p : ℕ}
    (hat : p + search.length ≤ text.length) :
    (text.take p ++ replace ++ text.drop (p + search.length)).length =
      text.length - search.length + replace.length := by
  simp only [List.length_append, List.length_take, List.length_drop]
  omega

theorem replacePass_progress (hsearch : search ≠ []) (s : ReplaceState) :
    (∃ r, replacePass search replace s = .inl r) ∨
      ∃ s', replacePass search replace s = .inr s' ∧ s'.left < s.left := by
  cases hfind : find s.result search s.pos with
  | none => exact .inl ⟨_, replacePass_none hfind⟩
  | some p =>
      obtain ⟨⟨hpos, hat⟩, -, -⟩ := find_eq_some_iff.mp hfind
      obtain ⟨hle, -⟩ := lt_length_of_prefix_drop hsearch hat
      have hlen := length_replaced replace hle
      by_cases hfits : s.result.length - search.length + replace.length ≤ maxSize
      · refine .inr ⟨_, replacePass_some replace hfind (hlen ▸ hfits), ?_⟩
        have hnear := sizeT_resume hle hfits
        simp only [ReplaceState.left, hlen]
        omega
      · refine .inl ⟨none, ?_⟩
        simp only [replacePass, hfind]
        exact if_pos (by omega)

theorem ends_replaceLoop (hsearch : search ≠ []) (replace source : Bytes) :
    ∃ r, Ends (fun _ => replacePass search replace) 0 ⟨source, 0⟩ r := by
  have hends : ∃ r, Ends (fun _ => replacePass search replace) 0 ⟨source, 0⟩ r ∧ True := by
    refine Ends.of_measure ReplaceState.left (fun k s (hs : True) => ?_) 0 trivial
    refine ⟨0, fun i _ _ => by omega, ?_⟩
    rcases replacePass_progress hsearch s with ⟨r, hleave⟩ | ⟨s', hpass, hlt⟩
    · exact .inl ⟨r, hleave, trivial⟩
    · exact .inr ⟨s', hpass, hs, hlt⟩
  obtain ⟨r, hends, -⟩ := hends
  exact ⟨r, hends⟩

/-! ## Occurrences replaced once -/

theorem sizeT_eq_of_nonneg {x : ℤ} (hx : 0 ≤ x) (hlt : x < 2 ^ 64) : (sizeT x : ℤ) = x := by
  unfold sizeT
  omega

/-- The search that goes on finds what a search of the rest would find. -/
theorem Resumes.find_eq (hsearch : search ≠ []) {done rest : Bytes}
    (h : Resumes search done rest) (hfits : (done ++ rest).length ≤ maxSize)
    (hlen : search.length ≤ maxSize) :
    find (done ++ rest) search (sizeT (done.length + 1 - search.length)) =
      find (done ++ rest) search done.length := by
  have hpos := List.length_pos_iff.mpr hsearch
  have hdone : done.length ≤ maxSize := by
    rw [List.length_append] at hfits
    omega
  rw [Resumes] at h
  split_ifs at h with hwrap
  · have hnone : find (done ++ rest) search done.length = none := by
      rw [find_append, (find_eq_none_iff hsearch).mpr fun i _ => h i]
      rfl
    rw [hnone, find_eq_none_iff hsearch]
    intro i hi hat
    have hat := (lt_length_of_prefix_drop hsearch hat).1
    unfold sizeT maxSize at *
    omega
  · have hresume : (sizeT (done.length + 1 - search.length) : ℤ) =
        done.length + 1 - search.length :=
      sizeT_eq_of_nonneg (by omega) (by unfold maxSize at hdone; omega)
    exact find_congr (by omega) fun i hi hlt => h i hlt (by omega)

theorem ends_of_scan (hsearch : search ≠ []) (hlen : search.length ≤ maxSize) {source : Bytes}
    (hsource : source.length ≤ maxSize)
    (hfits : (replaceAll search replace 0 source).length ≤ maxSize)
    (hresumes : ResumesAll source search replace) (k : ℕ) {done rest : Bytes} {pos : ℕ}
    (hscan : Scan search replace source done rest)
    (hpos : find (done ++ rest) search pos = find (done ++ rest) search done.length) :
    Ends (fun _ => replacePass search replace) k ⟨done ++ rest, pos⟩
      (some (replaceAll search replace 0 source)) := by
  induction hn : rest.length using Nat.strong_induction_on generalizing k done rest pos with
  | _ n ih =>
      subst hn
      rw [find_append] at hpos
      cases hfind : find rest search 0 with
      | none =>
          rw [hfind, Option.map_none] at hpos
          have hnone : ∀ i, ¬search <+: rest.drop i := fun i =>
            (find_eq_none_iff hsearch).mp hfind i i.zero_le
          rw [hscan.replaceAll_eq hsearch, replaceAll_of_not hnone]
          exact .leave (replacePass_none hpos)
      | some p =>
          rw [hfind, Option.map_some] at hpos
          obtain ⟨front, back, rfl, rfl, hfirst⟩ := exists_first_of_find hfind
          have hnext := hscan.replaced hfirst
          have hnextFits := (hnext.length_le hsearch).trans (max_le hsource hfits)
          have htext : (done ++ (front ++ search ++ back)).take (done.length + front.length) ++
              replace ++ (done ++ (front ++ search ++ back)).drop
                (done.length + front.length + search.length) =
              done ++ front ++ replace ++ back := by
            rw [← List.length_append, ← List.append_assoc, ← List.append_assoc,
              List.append_assoc (done ++ front), List.take_left, ← List.append_assoc,
              ← List.length_append, List.drop_left]
          have hpass := replacePass_some (s := ⟨done ++ (front ++ search ++ back), pos⟩) replace
            hpos (by rw [htext]; exact hnextFits)
          rw [htext] at hpass
          refine .pass hpass (ih back.length ?_ _ hnext ?_ rfl)
          · have hword := List.length_pos_iff.mpr hsearch
            simp only [List.length_append]
            omega
          · rw [← (hresumes done front back hscan hfirst).find_eq hsearch hnextFits hlen]
            congr 2
            simp only [List.length_append]
            push_cast
            ring

/-- A word that is replaced by itself leaves the text as it is, wherever it is found. -/
theorem replaceLoop_self {source : Bytes}
    (hsource : source.length ≤ maxSize) {k fuel : ℕ} {pos : ℕ} {r : Option Bytes}
    (h : loop (fun _ => replacePass search search) fuel k ⟨source, pos⟩ = some r) :
    r = some source := by
  induction fuel generalizing k pos with
  | zero => cases h
  | succ fuel ih =>
      rw [loop] at h
      cases hfind : find source search pos with
      | none =>
          rw [replacePass_none hfind] at h
          exact (Option.some.inj h).symm
      | some p =>
          have hsame := take_append_drop_of_prefix (find_eq_some_iff.mp hfind).1.2
          rw [replacePass_some search hfind (by rw [hsame]; exact hsource)] at h
          simp only [hsame] at h
          exact ih h

theorem replaceLaw_of_ends {buf : Bytes} {source search replace : CString}
    (hsearch : search.1 ≠ []) (hfits : ReplaceFits buf.length source search replace)
    (h : Ends (fun _ => replacePass search.1 replace.1) 0 ⟨source.1, 0⟩
      (some (replaceAll search.1 replace.1 0 source.1))) :
    ReplaceLaw buf source search replace := by
  obtain ⟨fuel, hfuel⟩ := h
  have hnul : 0 ∉ replaceAll search.1 replace.1 0 source.1 := fun hmem =>
    (mem_replaceAll hsearch hmem).elim source.2.1 replace.2.1
  refine ⟨fuel, ?_⟩
  rw [strReplace, replaceLoop, hfuel, Option.map_some]
  simp only [cStr_eq_self hnul]
  by_cases hbuf : buf.length < 2
  · have hnone : min (replaceAll search.1 replace.1 0 source.1).length (buf.length - 1) = 0 := by
      omega
    rw [strPrintf, if_pos hbuf, if_pos hbuf, hnone]
    rfl
  · rw [strPrintf_eq (by omega) (hfits.prints.resolve_left hbuf), if_neg hbuf]

theorem replaceLaw_of_resumes {buf : Bytes} {source search replace : CString}
    (hsearch : search.1 ≠ []) (hfits : ReplaceFits buf.length source search replace)
    (h : search = replace ∨ ResumesAll source.1 search.1 replace.1) :
    ReplaceLaw buf source search replace := by
  have hmax : ∀ s : CString, s.1.length ≤ maxSize := fun s => Nat.le_sub_one_of_lt s.2.2
  refine replaceLaw_of_ends hsearch hfits ?_
  rcases h with rfl | hresumes
  · obtain ⟨r, fuel, hfuel⟩ := ends_replaceLoop hsearch search.1 source.1
    have hr := replaceLoop_self (hmax source) hfuel
    exact ⟨fuel, by rw [replaceAll_self hsearch, hfuel, hr]⟩
  · exact ends_of_scan hsearch (hmax search) (hmax source) hfits.fits hresumes 0 .start rfl

/-! ## Which search strings and replacements go together -/

/-- What stands across the end of `done` begins with an end of the text that was put in. -/
theorem NeverOverlaps.resumesAll (h : NeverOverlaps search replace) (source : Bytes) :
    ResumesAll source search replace := by
  intro done front back _ _
  obtain ⟨hlen, hends⟩ := h
  have hlong : ¬(done ++ front ++ replace).length + 1 < search.length := by
    rw [List.length_append]
    omega
  rw [Resumes, if_neg hlong]
  intro i hi hacross hat
  rw [List.drop_append_of_le_length hi.le] at hat
  have hover : ((done ++ front ++ replace).drop i).length < search.length := by
    rw [List.length_drop]
    omega
  obtain ⟨rest, hrest⟩ := List.prefix_of_prefix_length_le (List.prefix_append _ back) hat hover.le
  have hend : (done ++ front ++ replace).drop i <:+ replace :=
    List.suffix_of_suffix_length_le (List.drop_suffix _ _) (List.suffix_append _ _) (by omega)
  refine hends _ rest ?_ ?_ hrest.symm hend
  · exact List.ne_nil_of_length_pos (by rw [List.length_drop]; omega)
  · rintro rfl
    rw [List.append_nil] at hrest
    exact hover.ne (congrArg List.length hrest)

/-- What every replacement keeps holds of the result. -/
theorem replaceLoop_mem {P : Bytes → Prop}
    (hP : ∀ front back, P (front ++ search ++ back) → P (front ++ replace ++ back))
    {k fuel : ℕ} {result : Bytes} (hs : P s.result)
    (h : loop (fun _ => replacePass search replace) fuel k s = some (some result)) :
    P result := by
  induction fuel generalizing k s with
  | zero => cases h
  | succ fuel ih =>
      rw [loop] at h
      cases hfind : find s.result search s.pos with
      | none =>
          rw [replacePass_none hfind] at h
          cases h
          exact hs
      | some p =>
          have htext := take_append_drop_of_prefix (find_eq_some_iff.mp hfind).1.2
          by_cases hfits : (s.result.take p ++ replace ++
              s.result.drop (p + search.length)).length ≤ maxSize
          · rw [replacePass_some replace hfind hfits] at h
            exact ih (hP _ _ (htext.symm ▸ hs)) h
          · simp only [replacePass, hfind, if_pos (Nat.lt_of_not_le hfits)] at h
            cases h

def codes (text : Bytes) : List ℕ := text.map UInt8.toNat

theorem codes_injective : Function.Injective codes :=
  List.map_injective_iff.mpr fun _ _ => UInt8.toNat_inj.mp

theorem rank_codes_replaced_lt (h : rank (codes search) < rank (codes replace))
    (front back : Bytes) :
    rank (codes (front ++ search ++ back)) < rank (codes (front ++ replace ++ back)) := by
  simp only [codes, List.map_append]
  exact rank_replaced_lt h _ _

/-- No text comes back once something else has been put in it. -/
theorem ne_result_of_find (hne : search ≠ replace) {p : ℕ} {k : ℕ} {result : Bytes}
    (hfind : find s.result search s.pos = some p)
    (h : Ends (fun _ => replacePass search replace) k s (some result)) : result ≠ s.result := by
  have hkept : ∃ P : Bytes → Prop,
      (∀ front back, P (front ++ search ++ back) → P (front ++ replace ++ back)) ∧
      (∀ front back, front ++ search ++ back = s.result → P (front ++ replace ++ back)) ∧
      ¬P s.result := by
    have hrank : rank (codes search) ≠ rank (codes replace) := fun heq =>
      hne (codes_injective (Prod.ext_iff.mp heq).2)
    rcases lt_or_gt_of_ne hrank with hlt | hlt
    · refine ⟨fun text => rank (codes s.result) < rank (codes text), ?_, ?_, lt_irrefl _⟩
      · exact fun front back hlater => hlater.trans (rank_codes_replaced_lt hlt front back)
      · exact fun front back htext => htext ▸ rank_codes_replaced_lt hlt front back
    · have hback : ∀ front back : Bytes,
          rank (codes (front ++ replace ++ back)) < rank (codes (front ++ search ++ back)) :=
        rank_codes_replaced_lt hlt
      refine ⟨fun text => rank (codes text) < rank (codes s.result), ?_, ?_, lt_irrefl _⟩
      · exact fun front back hearlier => (hback front back).trans hearlier
      · exact fun front back htext => htext ▸ hback front back
  obtain ⟨P, hstep, hfirst, hnot⟩ := hkept
  have htext := take_append_drop_of_prefix (find_eq_some_iff.mp hfind).1.2
  by_cases hfits : (s.result.take p ++ replace ++
      s.result.drop (p + search.length)).length ≤ maxSize
  · obtain ⟨fuel, hfuel⟩ := h.of_pass (replacePass_some replace hfind hfits)
    have hresult := replaceLoop_mem hstep (hfirst _ _ htext) hfuel
    exact fun heq => hnot (heq ▸ hresult)
  · have hleave : replacePass search replace s = .inl none := by
      simp only [replacePass, hfind, if_pos (Nat.lt_of_not_le hfits)]
    exact absurd (h.unique (.leave hleave)) (by simp)

theorem ends_of_replaceLaw {buf : Bytes} {source search replace : CString}
    (hsize : buf.length < 2 ^ 31)
    (hfits : (replaceAll search.1 replace.1 0 source.1).length + 1 < buf.length)
    (h : ReplaceLaw buf source search replace) :
    Ends (fun _ => replacePass search.1 replace.1) 0 ⟨source.1, 0⟩
      (some (replaceAll search.1 replace.1 0 source.1)) := by
  obtain ⟨fuel, hfuel⟩ := h
  refine ⟨fuel, ?_⟩
  obtain ⟨r, hloop, hr⟩ := Option.map_eq_some_iff.mp hfuel
  cases r with
  | none => cases hr
  | some result =>
      have hnul : 0 ∉ result := by
        refine replaceLoop_mem (P := fun text => 0 ∉ text) (fun front back hmem => ?_)
          source.2.1 hloop
        simp only [List.mem_append, not_or] at hmem ⊢
        exact ⟨⟨hmem.1.1, replace.2.1⟩, hmem.2⟩
      simp only [cStr_eq_self hnul, ReplaceResult.printed.injEq] at hr
      rw [if_neg (by omega), min_eq_left (by omega)] at hr
      rw [← eq_of_strPrintf_eq hsize hfits hr]
      exact hloop

theorem replaceAll_start (hsearch : search ≠ []) (replace back : Bytes) :
    replaceAll search replace 0 (search ++ back) =
      replace ++ replaceAll search replace 0 back := by
  have hfirst : First search [] back := fun i hi => absurd hi (Nat.not_lt_zero i)
  exact replaceAll_of_first hsearch replace hfirst

/-- The first pass of a source that begins with the search string. -/
theorem replacePass_start {back : Bytes} (hfits : (replace ++ back).length ≤ maxSize) :
    replacePass search replace ⟨search ++ back, 0⟩ =
      .inr ⟨replace ++ back, sizeT (replace.length + 1 - search.length)⟩ := by
  have hfind : find (search ++ back) search 0 = some 0 := by
    rw [find_eq_some_iff]
    exact ⟨⟨le_rfl, List.prefix_append search back⟩, Nat.zero_le _, fun i hi => by omega⟩
  have htext : (search ++ back).take 0 ++ replace ++ (search ++ back).drop (0 + search.length) =
      replace ++ back := by
    rw [List.take_zero, List.nil_append, Nat.zero_add, List.drop_left]
  have hpass := replacePass_some (s := ⟨search ++ back, 0⟩) replace hfind
    (by rw [htext]; exact hfits)
  rw [htext] at hpass
  rw [hpass]
  congr 3
  push_cast
  ring

theorem PairLaw.ends {search replace : CString} (h : PairLaw search replace)
    (hsearch : search.1 ≠ []) (hsize : search.1.length + replace.1.length < 2 ^ 29)
    {back : Bytes} (hnul : 0 ∉ back) (hback : back.length ≤ search.1.length)
    (hlen : (replaceAll search.1 replace.1 0 back).length ≤
      search.1.length + replace.1.length) :
    Ends (fun _ => replacePass search.1 replace.1) 1
      ⟨replace.1 ++ back, sizeT (replace.1.length + 1 - search.1.length)⟩
      (some (replace.1 ++ replaceAll search.1 replace.1 0 back)) := by
  have htext := replaceAll_start hsearch replace.1 back
  have hfits : (replace.1 ++ replaceAll search.1 replace.1 0 back).length + 1 < 2 ^ 31 - 1 := by
    rw [List.length_append]
    omega
  have hbuf : (List.replicate (2 ^ 31 - 1) (0 : UInt8)).length = 2 ^ 31 - 1 :=
    List.length_replicate
  have hlong : (search.1 ++ back).length < 2 ^ 63 := by
    rw [List.length_append]
    omega
  have hsource : 0 ∉ search.1 ++ back := by
    rw [List.mem_append, not_or]
    exact ⟨search.2.1, hnul⟩
  have hlaw := h (List.replicate (2 ^ 31 - 1) 0) ⟨search.1 ++ back, hsource, hlong⟩
    ⟨by rw [htext]; unfold maxSize; omega,
      .inr ⟨by rw [htext]; omega, .inl (by rw [hbuf]; omega)⟩⟩
  have hrun := ends_of_replaceLaw (by rw [hbuf]; omega) (by rw [htext, hbuf]; exact hfits) hlaw
  rw [htext] at hrun
  refine hrun.of_pass (replacePass_start ?_)
  rw [List.length_append]
  unfold maxSize
  omega

/-- Otherwise the place wraps, and the second of two search strings stays. -/
theorem PairLaw.length_le {search replace : CString} (h : PairLaw search replace)
    (hsearch : search.1 ≠ []) (hsize : search.1.length + replace.1.length < 2 ^ 29)
    (hne : search.1 ≠ replace.1) : search.1.length ≤ replace.1.length + 1 := by
  by_contra hshort
  have htwice := replaceAll_start hsearch replace.1 []
  rw [List.append_nil, replaceAll, List.append_nil] at htwice
  have hrun := h.ends hsearch hsize search.2.1 le_rfl (by rw [htwice]; omega)
  rw [htwice] at hrun
  have hnone : find (replace.1 ++ search.1) search.1
      (sizeT (replace.1.length + 1 - search.1.length)) = none := by
    rw [find_eq_none_iff hsearch]
    intro i hi hat
    have hat := (lt_length_of_prefix_drop hsearch hat).1
    rw [List.length_append] at hat
    unfold sizeT at hi
    omega
  have hsame := Option.some.inj (hrun.unique (.leave (replacePass_none hnone)))
  exact hne (List.append_cancel_left hsame).symm

/-- Otherwise the rest of a search string behind a whole one is enough to make the function
find it again. -/
theorem PairLaw.neverOverlaps {search replace : CString} (h : PairLaw search replace)
    (hsearch : search.1 ≠ []) (hsize : search.1.length + replace.1.length < 2 ^ 29)
    (hne : search.1 ≠ replace.1) : NeverOverlaps search.1 replace.1 := by
  have hlong := h.length_le hsearch hsize hne
  refine ⟨hlong, ?_⟩
  rintro front rest hfront hrest hsplit ⟨init, hinit⟩
  have hfrontLen := List.length_pos_iff.mpr hfront
  have hrestLen := List.length_pos_iff.mpr hrest
  have hsplitLen := congrArg List.length hsplit
  have hinitLen := congrArg List.length hinit
  rw [List.length_append] at hsplitLen hinitLen
  have hnone : ∀ i, ¬search.1 <+: rest.drop i := fun i hat => by
    have hle := (lt_length_of_prefix_drop hsearch hat).1
    omega
  have hnul : 0 ∉ rest := fun hmem => search.2.1 (hsplit ▸ List.mem_append_right front hmem)
  have hrun := h.ends hsearch hsize hnul (by omega) (by rw [replaceAll_of_not hnone]; omega)
  rw [replaceAll_of_not hnone] at hrun
  have hover : search.1 <+: (replace.1 ++ rest).drop init.length := by
    rw [← hinit, List.append_assoc, List.drop_left, hsplit]
  cases hfind : find (replace.1 ++ rest) search.1
      (sizeT (replace.1.length + 1 - search.1.length)) with
  | none =>
      have hresume : (sizeT (replace.1.length + 1 - search.1.length) : ℤ) =
          replace.1.length + 1 - search.1.length :=
        sizeT_eq_of_nonneg (by omega) (by omega)
      exact (find_eq_none_iff hsearch).mp hfind init.length (by omega) hover
  | some p => exact ne_result_of_find hne hfind hrun rfl

/-- **Replacing from the left.**  The function returns.  It replaces every occurrence once
when its search goes on behind each replacement as it should; and all sources are dealt with
so by the pairs that are the same or never overlap, and by no others. -/
theorem strReplace_law (search replace : CString) (hsearch : search.1 ≠ []) :
    (∀ buf source, ∃ fuel r, strReplace fuel buf source search replace = some r) ∧
      (∀ buf source, ReplaceFits buf.length source search replace →
        search = replace ∨ ResumesAll source.1 search.1 replace.1 →
        ReplaceLaw buf source search replace) ∧
      (search.1.length + replace.1.length < 2 ^ 29 →
        (PairLaw search replace ↔ search = replace ∨ NeverOverlaps search.1 replace.1)) := by
  refine ⟨fun buf source => ?_, fun buf source => replaceLaw_of_resumes hsearch, fun hsize => ?_⟩
  · obtain ⟨r, fuel, hfuel⟩ := ends_replaceLoop hsearch replace.1 source.1
    exact ⟨fuel, _, by rw [strReplace, replaceLoop, hfuel, Option.map_some]⟩
  · constructor
    · intro h
      by_cases hsame : search = replace
      · exact .inl hsame
      · exact .inr (h.neverOverlaps hsearch hsize fun heq => hsame (Subtype.ext heq))
    · intro h buf source hfits
      exact replaceLaw_of_resumes hsearch hfits (h.imp_right fun hnever => hnever.resumesAll _)

theorem strReplace_law_abc : PairLaw ⟨ascii "abc", by decide⟩ ⟨ascii "12", by decide⟩ := by
  refine ((strReplace_law ⟨ascii "abc", by decide⟩ ⟨ascii "12", by decide⟩ (by decide)).2.2
    (by decide)).mpr (.inr ⟨by decide, ?_⟩)
  rintro (_ | ⟨c, front⟩) rest hfront - hsplit hend
  · exact hfront rfl
  · obtain ⟨rfl, -⟩ := List.cons.inj hsplit
    exact absurd (hend.subset List.mem_cons_self) (by decide)

/-- The `b` that is left behind `a` is searched once more. -/
theorem strReplace_abb : ¬ReplaceLaw (List.replicate 32 0) ⟨ascii "abb", by decide⟩
    ⟨ascii "ab", by decide⟩ ⟨ascii "a", by decide⟩ := by
  intro hlaw
  have hends := ends_of_replaceLaw (by decide) (by decide) hlaw
  have hrun : Ends (fun _ => replacePass (ascii "ab") (ascii "a")) 0 ⟨ascii "abb", 0⟩
      (some (ascii "a")) := ⟨3, by decide +kernel⟩
  exact absurd (hends.unique hrun) (by decide +kernel)

end CommonComponent
