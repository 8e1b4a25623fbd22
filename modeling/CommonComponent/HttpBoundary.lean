import CommonComponent.HttpParserChunks
import CommonComponent.TextPieces
import Mathlib.Tactic

/-!
# The boundary of a multipart body

`GetBoundary` takes the parameters that stand behind `multipart/form-data;` apart with
`strsep`.  Here is what the boundary of a content type is meant to be, the value of the
first boundary parameter that has one, and exactly when `GetBoundary` finds it.
-/

namespace CommonComponent

open TextPieces

namespace Boundary

/-- The parameters, as text between semicolons. -/
def parameters (contentType : Bytes) : List Bytes :=
  if contentType.length < (ascii "multipart/form-data;").length then []
  else (cStr (contentType.drop (ascii "multipart/form-data;").length)).splitOn 59

def attrName (piece : Bytes) : Bytes := trim isSpace (before 61 piece)

def IsBoundary (piece : Bytes) : Prop := attrName piece = ascii "boundary"

instance (piece : Bytes) : Decidable (IsBoundary piece) :=
  inferInstanceAs (Decidable (attrName piece = ascii "boundary"))

/-- A text in a matching pair of quotes. -/
def Quoted (text : Bytes) : Prop := ∃ q core, isQuote q ∧ text = q :: (core ++ [q])

/-- The pair of quotes is taken off, where there is one. -/
def unquote : Bytes → Bytes
  | [] => []
  | q :: rest => if isQuote q ∧ rest.getLast? = some q then rest.dropLast else q :: rest

/-- All that stands behind the first `=`, but for spaces around it and the quotes that
enclose it. -/
def value (piece : Bytes) : Bytes := unquote (trim isSpace (behind 61 piece))

/-- What `GetBoundary` is for. -/
def boundary (contentType : Bytes) : Bytes :=
  match (parameters contentType).find? fun piece => IsBoundary piece ∧ value piece ≠ [] with
  | none => []
  | some piece => ascii "--" ++ value piece

/-- A value with no `=` in it.  In quotes, it has neither spaces outside them nor quotes or
spaces right inside; not in quotes, the text has no quote at either end. -/
structure PlainValue (text : Bytes) : Prop where
  noEquals : 61 ∉ text
  plain : (∃ q core, isQuote q ∧ text = q :: (core ++ [q]) ∧ core ≠ [] ∧
      Trimmed isSpace core ∧ Trimmed isQuote core) ∨
    (trim isSpace text ≠ [] ∧ ¬Quoted (trim isSpace text) ∧ Trimmed isQuote text)

/-- An empty value in quotes that have spaces on both sides: the code keeps the quotes. -/
def KeptPair (q : UInt8) (text : Bytes) : Prop :=
  isQuote q ∧ ∃ spaces spaces', text = spaces ++ [q, q] ++ spaces' ∧
    spaces ≠ [] ∧ spaces' ≠ [] ∧ (∀ c ∈ spaces, isSpace c) ∧ ∀ c ∈ spaces', isSpace c

/-- The content types that `GetBoundary` gets right. -/
structure Readable (contentType : Bytes) : Prop where
  semicolon : (ascii "multipart/form-data;").length ≤ contentType.length
  pairs : ∀ piece ∈ parameters contentType, 61 ∈ piece
  plain : ∀ piece, (parameters contentType).find? (fun piece => IsBoundary piece) =
    some piece → PlainValue (behind 61 piece) ∨
      ∃ q, KeptPair q (behind 61 piece) ∧ boundary contentType = ascii "--" ++ [q, q]

/-! ## What the code makes of the parameters -/

/-- The value as `ParseAttr` takes it, up to the second `=`. -/
def codeValue (piece : Bytes) : Bytes :=
  trim isSpace (trim isQuote (before 61 (behind 61 piece)))

def attr (piece : Bytes) : Bytes × Bytes := (attrName piece, codeValue piece)

def insertAttr (attrs : StringMap) (piece : Bytes) : Option StringMap :=
  match piece.splitOn 61 with
  | name :: value :: _ =>
      some (attrs.insertIfNew (strTrimSpace name) (strTrimSpace (strTrimQuotes value)))
  | _ => none

theorem insertAttr_of_mem (attrs : StringMap) {piece : Bytes} (hpair : 61 ∈ piece) :
    insertAttr attrs piece = some (attrs.insertIfNew (attr piece).1 (attr piece).2) := by
  obtain ⟨rest, hrest⟩ := splitOn_head 61 (behind 61 piece)
  unfold insertAttr
  rw [splitOn_of_mem hpair, hrest]
  rfl

theorem insertAttr_of_not_mem (attrs : StringMap) {piece : Bytes} (hpair : 61 ∉ piece) :
    insertAttr attrs piece = none := by
  unfold insertAttr
  rw [List.splitOn_eq_singleton hpair]

theorem foldlM_insertAttr (pieces : List Bytes) (attrs : StringMap) :
    pieces.foldlM insertAttr attrs =
      if ∀ piece ∈ pieces, 61 ∈ piece then
        some ((pieces.map attr).foldl
          (fun attrs pair => attrs.insertIfNew pair.1 pair.2) attrs)
      else none := by
  induction pieces generalizing attrs with
  | nil => rfl
  | cons piece pieces ih =>
      rw [List.foldlM_cons]
      by_cases hpair : 61 ∈ piece
      · rw [insertAttr_of_mem attrs hpair, Option.bind_eq_bind, Option.bind_some, ih]
        simp [hpair]
      · rw [insertAttr_of_not_mem attrs hpair]
        simp [hpair]

/-- Spaces in front of the first parameter do not matter. -/
theorem splitOn_dropWhile_space (str : Bytes) :
    ∃ first rest, str.splitOn 59 = first :: rest ∧
      (str.dropWhile isSpace).splitOn 59 = first.dropWhile isSpace :: rest := by
  induction str with
  | nil => exact ⟨[], [], rfl, rfl⟩
  | cons c str ih =>
      obtain ⟨first, rest, hsplit, hdrop⟩ := ih
      by_cases hspace : isSpace c
      · have hc : (c == 59) = false := by
          rw [beq_eq_false_iff_ne]
          rintro rfl
          exact absurd hspace (by decide)
        refine ⟨c :: first, rest, ?_, ?_⟩
        · rw [List.splitOn_cons_eq_if_modifyHead, hc, hsplit]
          rfl
        · rw [List.dropWhile_cons_of_pos hspace, hdrop, List.dropWhile_cons_of_pos hspace]
      · rw [List.dropWhile_cons_of_neg hspace]
        by_cases hc : c = 59
        · subst hc
          refine ⟨[], str.splitOn 59, ?_, ?_⟩ <;>
            simp [List.splitOn_cons_eq_if_modifyHead]
        · refine ⟨c :: first, rest, ?_, ?_⟩ <;>
            simp [List.splitOn_cons_eq_if_modifyHead, hc, hsplit, hspace]

theorem attr_dropWhile_space (piece : Bytes) :
    attr (piece.dropWhile isSpace) = attr piece ∧
      (61 ∈ piece.dropWhile isSpace ↔ 61 ∈ piece) := by
  induction piece with
  | nil => simp
  | cons c piece ih =>
      by_cases hspace : isSpace c
      · have hc : c ≠ 61 := by
          rintro rfl
          exact absurd hspace (by decide)
        have hbefore : before 61 (c :: piece) = c :: before 61 piece := by
          simp [before, hc]
        have hbehind : behind 61 (c :: piece) = behind 61 piece := by
          simp [behind, hc]
        rw [List.dropWhile_cons_of_pos hspace]
        refine ⟨ih.1.trans ?_, ih.2.trans ?_⟩
        · simp only [attr, attrName, codeValue, hbefore, hbehind]
          simp [trim, hspace]
        · simp [hc.symm]
      · rw [List.dropWhile_cons_of_neg hspace]
        exact ⟨rfl, Iff.rfl⟩

theorem parseAttr_eq (str : Bytes) :
    parseAttr str =
      if ∀ piece ∈ (str.splitOn 59 : List Bytes), 61 ∈ piece then
        some (headerMap ((str.splitOn 59).map attr))
      else none := by
  obtain ⟨first, rest, hsplit, hdrop⟩ := splitOn_dropWhile_space str
  obtain ⟨hattr, hpair⟩ := attr_dropWhile_space first
  have hfold := foldlM_insertAttr ((str.dropWhile isSpace).splitOn 59) ∅
  rw [hdrop, List.map_cons, hattr, ← List.map_cons] at hfold
  simp only [List.forall_mem_cons, hpair] at hfold
  rw [hsplit, parseAttr, hdrop]
  simp only [List.forall_mem_cons]
  exact hfold

theorem lookup_map_attr (pieces : List Bytes) (name : Bytes) :
    (pieces.map attr).lookup name =
      (pieces.find? fun piece => attrName piece = name).map codeValue := by
  induction pieces with
  | nil => rfl
  | cons piece pieces ih =>
      rw [List.map_cons, lookup_cons_ite, ih, attr]
      by_cases hname : attrName piece = name
      · rw [List.find?_cons_of_pos (by simpa using hname), if_pos hname.symm]
        rfl
      · rw [List.find?_cons_of_neg (by simpa using hname), if_neg (Ne.symm hname)]

/-- **What `GetBoundary` does.**  It gives out at a parameter without a `=`, and else
takes the first boundary parameter, as the code reads it. -/
theorem getBoundary_eq (contentType : Bytes) :
    getBoundary contentType =
      if contentType.length < (ascii "multipart/form-data;").length ∨
          ¬∀ piece ∈ parameters contentType, 61 ∈ piece then none
      else
        some (match (parameters contentType).find? fun piece => IsBoundary piece with
          | none => []
          | some piece => ascii "--" ++ codeValue piece) := by
  unfold getBoundary parameters
  by_cases hshort : contentType.length < (ascii "multipart/form-data;").length
  · simp [hshort]
  · simp only [hshort, if_false, false_or]
    rw [parseAttr_eq]
    by_cases hpairs : ∀ piece ∈ ((cStr (contentType.drop
        (ascii "multipart/form-data;").length)).splitOn 59 : List Bytes), 61 ∈ piece
    · rw [if_pos hpairs, if_neg (not_not.mpr hpairs), Option.map_some,
        getElem?_headerMap, lookup_map_attr]
      have hfind : ((cStr (contentType.drop (ascii "multipart/form-data;").length)).splitOn
          59).find? (fun piece => IsBoundary piece) =
          ((cStr (contentType.drop (ascii "multipart/form-data;").length)).splitOn 59).find?
            (fun piece => attrName piece = ascii "boundary") := rfl
      rw [hfind]
      cases ((cStr (contentType.drop (ascii "multipart/form-data;").length)).splitOn 59).find?
        (fun piece => attrName piece = ascii "boundary") <;> rfl
    · rw [if_neg hpairs, if_pos hpairs]
      rfl

/-! ## Where the two values agree -/

theorem not_isQuote_of_isSpace {c : UInt8} (hspace : isSpace c) : ¬isQuote c := by
  intro hquote
  rcases (by simpa [isQuote] using hquote : c = 34 ∨ c = 39) with rfl | rfl
  · exact absurd hspace (by decide)
  · exact absurd hspace (by decide)

theorem unquote_quoted {q : UInt8} (hquote : isQuote q) (core : Bytes) :
    unquote (q :: (core ++ [q])) = core := by
  simp [unquote, hquote]

theorem unquote_of_not_quoted {text : Bytes} (hnot : ¬Quoted text) : unquote text = text := by
  cases text with
  | nil => rfl
  | cons q rest =>
      refine if_neg fun hpair => hnot ⟨q, rest.dropLast, hpair.1, ?_⟩
      obtain ⟨core, rfl⟩ := List.getLast?_eq_some_iff.mp hpair.2
      rw [List.dropLast_concat]

theorem mem_value_of_mem {piece : Bytes} (hmem : 61 ∈ behind 61 piece) : 61 ∈ value piece := by
  obtain ⟨front, back, hsplit, hfront, hback⟩ := exists_trim isSpace (behind 61 piece)
  have htrim : 61 ∈ trim isSpace (behind 61 piece) := by
    rw [hsplit, List.mem_append, List.mem_append] at hmem
    rcases hmem with (hmem | hmem) | hmem
    · exact absurd (hfront 61 hmem) (by decide)
    · exact hmem
    · exact absurd (hback 61 hmem) (by decide)
  by_cases hpair : Quoted (trim isSpace (behind 61 piece))
  · obtain ⟨q, core, hquote, htext⟩ := hpair
    rw [value, htext, unquote_quoted hquote]
    have hne : 61 ≠ q := by
      rintro rfl
      exact absurd hquote (by decide)
    simpa [htext, hne] using htrim
  · rwa [value, unquote_of_not_quoted hpair]

theorem codeValue_subset (piece : Bytes) : codeValue piece ⊆ before 61 (behind 61 piece) :=
  fun _ hc => trim_subset _ _ (trim_subset _ _ hc)

theorem not_mem_of_eq {piece : Bytes} (heq : codeValue piece = value piece) :
    61 ∉ behind 61 piece := fun hmem => by
  -- the second `=` is in the value, and the code has cut it off
  have hvalue := mem_value_of_mem hmem
  rw [← heq] at hvalue
  exact not_mem_before 61 (behind 61 piece) (codeValue_subset piece hvalue)

theorem trim_of_trimmed {p : UInt8 → Bool} {text : Bytes} (htrimmed : Trimmed p text)
    (hne : text ≠ []) : trim p text = text :=
  trim_eq (show text = [] ++ text ++ [] by simp) (by simp) (by simp) htrimmed hne

theorem PlainValue.codeValue_eq {piece : Bytes} (h : PlainValue (behind 61 piece)) :
    codeValue piece = value piece ∧ value piece ≠ [] := by
  rw [codeValue, value, before_eq_self h.noEquals]
  rcases h.plain with ⟨q, core, hquote, htext, hne, hspace, hcore⟩ | ⟨hne, hnot, htrimmed⟩
  · have hnotSpace : ¬isSpace q := fun hq => not_isQuote_of_isSpace hq hquote
    have hquotes : trim isQuote (q :: (core ++ [q])) = core :=
      trim_eq (show q :: (core ++ [q]) = [q] ++ core ++ [q] from rfl) (by simpa) (by simpa)
        hcore hne
    have hspaces : trim isSpace (q :: (core ++ [q])) = q :: (core ++ [q]) := by
      refine trim_of_trimmed ⟨by simpa using hnotSpace, ?_⟩ (by simp)
      rw [← List.cons_append, List.getLast?_concat]
      simpa using hnotSpace
    rw [htext, hquotes, hspaces, unquote_quoted hquote, trim_of_trimmed hspace hne]
    exact ⟨rfl, hne⟩
  · have htext : behind 61 piece ≠ [] := by
      intro hnil
      rw [hnil] at hne
      exact hne rfl
    rw [trim_of_trimmed htrimmed htext, unquote_of_not_quoted hnot]
    exact ⟨rfl, hne⟩

theorem countP_isQuote_of_space {spaces : Bytes} (hspaces : ∀ c ∈ spaces, isSpace c) :
    spaces.countP isQuote = 0 :=
  List.countP_eq_zero.mpr fun c hc => not_isQuote_of_isSpace (hspaces c hc)

theorem countP_isQuote_of_quote {quotes : Bytes} (hquotes : ∀ c ∈ quotes, isQuote c) :
    quotes.countP isQuote = quotes.length :=
  List.countP_eq_length.mpr hquotes

/-- What is left in front of a quoted value can not have lost two quotes on one side: the
value would have to lie one place further on. -/
theorem length_front_ne_two {quotes s core s' spaces spaces' : Bytes} {q : UInt8}
    (htext : quotes ++ (s ++ core ++ s') = spaces ++ q :: (core ++ [q]) ++ spaces')
    (hquotes : ∀ c ∈ quotes, isQuote c) (hs : ∀ c ∈ s, isSpace c)
    (hspaces : ∀ c ∈ spaces, isSpace c) (hspaces' : ∀ c ∈ spaces', isSpace c)
    (hne : core ≠ []) (hcore : Trimmed isSpace core)
    (hmid : ∀ c ∈ (s ++ core ++ s').head?, ¬isQuote c) : quotes.length ≠ 2 := by
  intro htwo
  obtain ⟨x, y, rfl⟩ := List.length_eq_two.mp htwo
  cases spaces with
  | cons z spaces =>
      have hhead : x = z := (List.cons.inj htext).1
      exact not_isQuote_of_isSpace (hspaces z (by simp)) (hhead ▸ hquotes x (by simp))
  | nil =>
      obtain ⟨z, rest, rfl⟩ := List.exists_cons_of_ne_nil hne
      have hyz : y = z := by simp_all
      cases s with
      | nil => exact hmid z rfl (hyz ▸ hquotes y (by simp))
      | cons w s =>
          -- more spaces follow the second quote than the value
          have hlen := congrArg List.length htext
          simp only [List.length_append, List.length_cons, List.length_nil] at hlen
          obtain ⟨front, last, hlast⟩ := (List.eq_nil_or_concat (z :: rest)).resolve_left hne
          have hend : last :: s' <:+ [x, y] ++ (w :: s ++ z :: rest ++ s') :=
            ⟨[x, y] ++ (w :: s ++ front), by simp [hlast]⟩
          have hsuffix : last :: s' <:+ spaces' := by
            refine List.suffix_of_suffix_length_le hend ⟨_, htext.symm⟩ ?_
            simp only [List.length_cons]
            omega
          refine hcore.last last ?_ (hspaces' last (hsuffix.subset (by simp)))
          rw [hlast]
          simp

/-- A value that survives both trimmings without its quotes has lost one on either side. -/
theorem quoted_of_trim_eq {text core : Bytes} {q : UInt8} (hquote : isQuote q)
    (hpair : trim isSpace text = q :: (core ++ [q]))
    (heq : trim isSpace (trim isQuote text) = core) (hne : core ≠ []) :
    text = q :: (core ++ [q]) ∧ Trimmed isSpace core ∧ Trimmed isQuote core := by
  obtain ⟨spaces, spaces', htext, hspaces, hspaces'⟩ := exists_trim isSpace text
  obtain ⟨quotes, quotes', hquoted, hquotes, hquotes'⟩ := exists_trim isQuote text
  obtain ⟨s, s', hmid, hs, hs'⟩ := exists_trim isSpace (trim isQuote text)
  have htrimmed := trimmed_trim isQuote text
  have hcore := trimmed_trim isSpace (trim isQuote text)
  rw [heq] at hmid hcore
  rw [hpair] at htext
  have htwo : quotes.length + quotes'.length = 2 := by
    have hcount := congrArg (List.countP isQuote) (hquoted.symm.trans htext)
    rw [hmid] at hcount
    simp only [List.countP_append, List.countP_cons, List.countP_nil, hquote, if_true,
      countP_isQuote_of_space hs, countP_isQuote_of_space hs', countP_isQuote_of_space hspaces,
      countP_isQuote_of_space hspaces', countP_isQuote_of_quote hquotes,
      countP_isQuote_of_quote hquotes'] at hcount
    omega
  have hfront : quotes.length ≠ 2 := fun hlen => by
    obtain rfl : quotes' = [] := List.eq_nil_of_length_eq_zero (by omega)
    rw [List.append_nil, hmid] at hquoted
    exact length_front_ne_two (hquoted.symm.trans htext) hquotes hs hspaces hspaces' hne hcore
      (hmid ▸ htrimmed.head) hlen
  have hback : quotes'.length ≠ 2 := fun hlen => by
    -- the same, read from behind
    obtain rfl : quotes = [] := List.eq_nil_of_length_eq_zero (by omega)
    rw [List.nil_append, hmid] at hquoted
    have hreverse := congrArg List.reverse (hquoted.symm.trans htext)
    have hmiddle := htrimmed.last
    rw [hmid] at hmiddle
    have hmirror : quotes'.reverse ++ (s'.reverse ++ core.reverse ++ s.reverse) =
        spaces'.reverse ++ q :: (core.reverse ++ [q]) ++ spaces.reverse := by
      simpa using hreverse
    refine length_front_ne_two hmirror (by simpa using hquotes')
      (by simpa using hs') (by simpa using hspaces') (by simpa using hspaces) (by simpa using hne)
      ⟨by simpa using hcore.last, by simpa using hcore.head⟩ ?_ (by simpa using hlen)
    simpa [← List.reverse_append] using hmiddle
  obtain ⟨x, rfl⟩ := List.length_eq_one_iff.mp (show quotes.length = 1 by omega)
  obtain ⟨y, rfl⟩ := List.length_eq_one_iff.mp (show quotes'.length = 1 by omega)
  have hnil : spaces = [] := by
    cases spaces with
    | nil => rfl
    | cons z spaces =>
        have hhead : x = z := (List.cons.inj (hquoted.symm.trans htext)).1
        exact absurd (hquotes x (by simp)) (hhead ▸ not_isQuote_of_isSpace (hspaces z (by simp)))
  have hnil' : spaces' = [] := by
    rcases List.eq_nil_or_concat spaces' with hnil' | ⟨front, z, rfl⟩
    · exact hnil'
    · have hlast := congrArg List.getLast? (hquoted.symm.trans htext)
      rw [List.getLast?_concat, List.concat_eq_append, ← List.append_assoc,
        List.getLast?_concat] at hlast
      obtain rfl : y = z := by simpa using hlast
      exact absurd (hquotes' y (by simp)) (not_isQuote_of_isSpace (hspaces' y (by simp)))
  rw [hnil, hnil', List.nil_append, List.append_nil] at htext
  have hmiddle : trim isQuote text = core := by
    have hboth := hquoted.symm.trans htext
    rw [List.append_assoc, List.singleton_append] at hboth
    exact (List.append_inj' (List.cons.inj hboth).2 rfl).1
  exact ⟨htext, hcore, hmiddle ▸ htrimmed⟩

theorem plainValue_of_eq {piece : Bytes} (heq : codeValue piece = value piece)
    (hne : value piece ≠ []) : PlainValue (behind 61 piece) := by
  have hnoEquals := not_mem_of_eq heq
  refine ⟨hnoEquals, ?_⟩
  rw [codeValue, value, before_eq_self hnoEquals] at heq
  rw [value] at hne
  by_cases hpair : Quoted (trim isSpace (behind 61 piece))
  · left
    obtain ⟨q, core, hquote, hcore⟩ := hpair
    rw [hcore, unquote_quoted hquote] at heq hne
    obtain ⟨htext, htrimmed⟩ := quoted_of_trim_eq hquote hcore heq hne
    exact ⟨q, core, hquote, htext, hne, htrimmed⟩
  · right
    rw [unquote_of_not_quoted hpair] at heq hne
    refine ⟨hne, hpair, ?_⟩
    -- no quote can have been lost
    obtain ⟨spaces, spaces', htext, hspaces, hspaces'⟩ := exists_trim isSpace (behind 61 piece)
    obtain ⟨quotes, quotes', hquoted, hquotes, hquotes'⟩ :=
      exists_trim isQuote (behind 61 piece)
    obtain ⟨s, s', hmid, hs, hs'⟩ := exists_trim isSpace (trim isQuote (behind 61 piece))
    have hnone : quotes.length + quotes'.length = 0 := by
      have hcount := congrArg (List.countP isQuote) (hquoted.symm.trans htext)
      rw [hmid, heq] at hcount
      simp only [List.countP_append, countP_isQuote_of_space hs, countP_isQuote_of_space hs',
        countP_isQuote_of_space hspaces, countP_isQuote_of_space hspaces',
        countP_isQuote_of_quote hquotes, countP_isQuote_of_quote hquotes'] at hcount
      omega
    have hwhole : trim isQuote (behind 61 piece) = behind 61 piece := by
      obtain rfl : quotes = [] := List.eq_nil_of_length_eq_zero (by omega)
      obtain rfl : quotes' = [] := List.eq_nil_of_length_eq_zero (by omega)
      simpa using hquoted.symm
    exact hwhole ▸ trimmed_trim isQuote (behind 61 piece)

theorem KeptPair.codeValue_eq {piece : Bytes} {q : UInt8} (h : KeptPair q (behind 61 piece)) :
    codeValue piece = [q, q] := by
  obtain ⟨hquote, spaces, spaces', htext, hne, hne', hspaces, hspaces'⟩ := h
  have hnotSpace : ¬isSpace q := fun hq => not_isQuote_of_isSpace hq hquote
  have hnoEquals : 61 ∉ behind 61 piece := by
    rw [htext, List.mem_append, List.mem_append, not_or, not_or]
    refine ⟨⟨fun hmem => absurd (hspaces 61 hmem) (by decide), fun hmem => ?_⟩,
      fun hmem => absurd (hspaces' 61 hmem) (by decide)⟩
    obtain rfl : 61 = q := by simpa using hmem
    exact absurd hquote (by decide)
  have htrimmed : Trimmed isQuote (behind 61 piece) := by
    obtain ⟨c, front, rfl⟩ := List.exists_cons_of_ne_nil hne
    obtain ⟨back, d, rfl⟩ := (List.eq_nil_or_concat spaces').resolve_left hne'
    rw [htext]
    constructor
    · intro a ha
      obtain rfl : c = a := by simpa using ha
      exact not_isQuote_of_isSpace (hspaces c (by simp))
    · intro a ha
      rw [List.concat_eq_append, ← List.append_assoc, List.getLast?_concat] at ha
      obtain rfl : d = a := by simpa using ha
      exact not_isQuote_of_isSpace (hspaces' d (by simp))
  rw [codeValue, before_eq_self hnoEquals, trim_of_trimmed htrimmed (by simp [htext])]
  exact trim_eq htext hspaces hspaces' ⟨by simpa using hnotSpace, by simpa using hnotSpace⟩
    (by simp)

/-- Where the first boundary parameter is empty and the code takes more than nothing from
it, that is a pair of quotes. -/
theorem keptPair_of_ne_nil {piece : Bytes} (hvalue : value piece = [])
    (hcode : codeValue piece ≠ []) : ∃ q, KeptPair q (behind 61 piece) := by
  have hnoEquals : 61 ∉ behind 61 piece := fun hmem => by
    have hmem' := mem_value_of_mem hmem
    rw [hvalue] at hmem'
    cases hmem'
  rw [codeValue, before_eq_self hnoEquals, Ne, trim_eq_nil_iff] at hcode
  by_cases hpair : Quoted (trim isSpace (behind 61 piece))
  · obtain ⟨q, core, hquote, hcore⟩ := hpair
    rw [value, hcore, unquote_quoted hquote] at hvalue
    subst hvalue
    obtain ⟨spaces, spaces', htext, hspaces, hspaces'⟩ := exists_trim isSpace (behind 61 piece)
    rw [hcore] at htext
    have hquotes : ∀ c ∈ [q, q], isQuote c := by simpa using hquote
    refine ⟨q, hquote, spaces, spaces', htext, ?_, ?_, hspaces, hspaces'⟩
    · rintro rfl
      refine hcode fun c hc => hspaces' c ?_
      rw [htext, List.nil_append, List.nil_append, trim_append_front hquotes] at hc
      exact trim_subset _ _ hc
    · rintro rfl
      refine hcode fun c hc => hspaces c ?_
      rw [htext, List.append_nil, List.nil_append, trim_append_back hquotes] at hc
      exact trim_subset _ _ hc
  · rw [value, unquote_of_not_quoted hpair, trim_eq_nil_iff] at hvalue
    exact absurd (fun c hc => hvalue c (trim_subset _ _ hc)) hcode

theorem find?_boundary_eq {pieces : List Bytes} {piece : Bytes}
    (hfind : pieces.find? (fun piece => IsBoundary piece) = some piece)
    (hne : value piece ≠ []) :
    pieces.find? (fun piece => IsBoundary piece ∧ value piece ≠ []) = some piece := by
  induction pieces with
  | nil => cases hfind
  | cons first rest ih =>
      by_cases hfirst : IsBoundary first
      · rw [List.find?_cons_of_pos (by simpa using hfirst), Option.some.injEq] at hfind
        subst hfind
        rw [List.find?_cons_of_pos (by simp [hfirst, hne])]
      · rw [List.find?_cons_of_neg (by simpa using hfirst)] at hfind
        rw [List.find?_cons_of_neg (by simp [hfirst])]
        exact ih hfind

theorem find?_boundary_eq_none {pieces : List Bytes}
    (hfind : pieces.find? (fun piece => IsBoundary piece) = none) :
    pieces.find? (fun piece => IsBoundary piece ∧ value piece ≠ []) = none := by
  rw [List.find?_eq_none] at hfind ⊢
  exact fun piece hpiece hboth => hfind piece hpiece (by simp_all)

/-- **Where `GetBoundary` finds the boundary.** -/
theorem getBoundary_eq_boundary_iff (contentType : Bytes) :
    getBoundary contentType = some (boundary contentType) ↔ Readable contentType := by
  rw [getBoundary_eq]
  constructor
  · intro heq
    split_ifs at heq with hnone
    rw [not_or, not_lt, not_not] at hnone
    refine ⟨hnone.1, hnone.2, fun piece hfind => ?_⟩
    rw [hfind, Option.some.injEq] at heq
    dsimp only at heq
    unfold boundary at heq
    cases hmeant : (parameters contentType).find?
        fun piece => IsBoundary piece ∧ value piece ≠ [] with
    | none =>
        rw [hmeant] at heq
        exact absurd heq (by simp [ascii])
    | some other =>
        rw [hmeant] at heq
        have hcode : codeValue piece = value other := List.append_cancel_left heq
        have hother : value other ≠ [] := by
          have hboth := List.find?_some hmeant
          rw [decide_eq_true_eq] at hboth
          exact hboth.2
        by_cases hne : value piece = []
        · right
          obtain ⟨q, hkept⟩ := keptPair_of_ne_nil hne (hcode ▸ hother)
          refine ⟨q, hkept, ?_⟩
          unfold boundary
          rw [hmeant, ← hkept.codeValue_eq, hcode]
        · left
          rw [find?_boundary_eq hfind hne, Option.some.injEq] at hmeant
          subst hmeant
          exact plainValue_of_eq hcode hne
  · intro h
    rw [if_neg (by simpa using ⟨h.semicolon, h.pairs⟩)]
    cases hfind : (parameters contentType).find? fun piece => IsBoundary piece with
    | none =>
        unfold boundary
        rw [find?_boundary_eq_none hfind]
    | some piece =>
        rcases h.plain piece hfind with hplain | ⟨q, hkept, hmeant⟩
        · obtain ⟨hcode, hne⟩ := hplain.codeValue_eq
          unfold boundary
          rw [find?_boundary_eq hfind hne]
          simp only [hcode]
        · rw [hmeant]
          simp only [hkept.codeValue_eq]

/-- A semicolon at the end makes one more parameter, without a `=`. -/
theorem getBoundary_trailing_semicolon : ¬∀ contentType : Bytes,
    hasPrefixNoCase (ascii "multipart/form-data") contentType →
      getBoundary contentType = some (boundary contentType) := by
  intro hall
  have hnone : getBoundary (ascii "multipart/form-data; boundary=x;") = none := by
    decide +kernel
  have hfound := hall (ascii "multipart/form-data; boundary=x;") (by decide)
  rw [hnone] at hfound
  cases hfound

example : boundary (ascii "multipart/form-data; charset=utf-8; boundary='a=b' ;") =
    ascii "--a=b" := by decide +kernel

example : boundary (ascii "multipart/form-data; boundary=abc'") = ascii "--abc'" := by
  decide +kernel

end Boundary

end CommonComponent
