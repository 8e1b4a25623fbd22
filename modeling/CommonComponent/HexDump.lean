import CommonComponent.StrPrintf
import CommonComponent.HttpReq
import Mathlib.Tactic

/-!
# Dumping bytes

`HexDump` prints a head, the numbers of the columns, and then the bytes one by one, with a
label before each sixteenth.  It looks for room before a number and before a byte, but not
behind the last of them, and what `StrPrintf` reports is the length of what it has cut.
-/

namespace CommonComponent

structure DumpState where
  offset : ℕ
  buf : Bytes
deriving DecidableEq

def bytesPerLine : ℕ := 16

def hexDigits (n : ℕ) : Bytes := (Nat.toDigits 16 n).map fun c => UInt8.ofNat c.toNat

def padded (fill : UInt8) (width : ℕ) (digits : Bytes) : Bytes :=
  List.replicate (width - digits.length) fill ++ digits

def dumpHead : Bytes := List.replicate 8 32

/-- `%3x`. -/
def columnText (i : ℕ) : Bytes := padded 32 3 (hexDigits i)

/-- `\n%08x:`, which sees 32 bits of the number. -/
def labelText (i : ℕ) : Bytes :=
  10 :: (padded 48 8 (hexDigits ((i / bytesPerLine + 1) % 2 ^ 32)) ++ [58])

/-- ` %02x`. -/
def byteText (c : UInt8) : Bytes := 32 :: padded 48 2 (hexDigits c.toNat)

def printAt (s : DumpState) (text : Bytes) : Except PrintResult DumpState :=
  match strPrintf (s.buf.drop s.offset) text with
  | .outside => .error .outside
  | .ret n printed => .ok ⟨(s.offset + n).toNat, s.buf.take s.offset ++ printed⟩

/-- What is printed after one look for room. -/
def printChecked (s : DumpState) (texts : List Bytes) : Except PrintResult DumpState :=
  if s.buf.length - s.offset ≤ 1 then .error (.ret (-1) s.buf)
  else texts.foldlM printAt s

def columns : List (List Bytes) := (List.range bytesPerLine).map fun i => [columnText i]

def rows (data : Bytes) : List (List Bytes) :=
  data.mapIdx fun i c =>
    if i % bytesPerLine = 0 then [labelText i, byteText c] else [byteText c]

def dumpResult : Except PrintResult DumpState → PrintResult
  | .error r => r
  | .ok s => .ret s.offset s.buf

/-- The pointers are not null. -/
def hexDump (buf data : Bytes) : PrintResult :=
  if buf.length < 2 ∨ data.length < 1 then .ret (-1) buf
  else
    dumpResult do
      let s ← printAt ⟨0, buf⟩ dumpHead
      let s ← columns.foldlM printChecked s
      (rows data).foldlM printChecked s

/-! ## Complete or refused -/

def pieces (data : Bytes) : List (List Bytes) := columns ++ rows data

/-- The whole of the dump. -/
def dumpText (data : Bytes) : Bytes := dumpHead ++ (pieces data).flatten.flatten

/-- The buffer keeps its size, and what is returned is -1 or the dump is there. -/
def HexDumpLaw (buf data : Bytes) : Prop :=
  ∃ n buf', hexDump buf data = .ret n buf' ∧ buf'.length = buf.length ∧
    (n = -1 ∨ 0 ≤ n ∧ dumpText data <+: buf')

/-- How long the dump of so many bytes is. -/
def dumpLength (len : ℕ) : ℕ := 56 + 3 * len + 10 * ((len + 15) / 16)

/-- The size as an `int` is greater than the length of the dump; or the room is used up
before the last byte. -/
def DumpFits (size len : ℕ) : Prop :=
  dumpLength len < toInt size ∨
    size ≤ 2 ^ 31 ∧ (size ≤ dumpLength (len - 1) + 1 ∨ size = 2 ^ 31)

/-! ## The texts -/

theorem exists_digitChar {n : ℕ} {c : Char} (hc : c ∈ Nat.toDigits 16 n) :
    ∃ d : ℕ, c = d.digitChar := by
  induction n using Nat.base_induction 16 (by decide) with
  | single m hm =>
      rw [Nat.toDigits_of_lt_base hm] at hc
      exact ⟨m, List.mem_singleton.mp hc⟩
  | digit m k hk hm ih =>
      rw [← Nat.toDigits_append_toDigits (by decide) hm hk, Nat.toDigits_of_lt_base hk,
        List.mem_append, List.mem_singleton] at hc
      exact hc.elim ih fun hlast => ⟨k, hlast⟩

theorem digitChar_code (d : ℕ) : 42 ≤ d.digitChar.toNat ∧ d.digitChar.toNat < 256 := by
  match d with
  | 0 | 1 | 2 | 3 | 4 | 5 | 6 | 7 | 8 | 9 | 10 | 11 | 12 | 13 | 14 | 15 => decide
  | _ + 16 => simp [Nat.digitChar]

theorem zero_not_mem_hexDigits (n : ℕ) : 0 ∉ hexDigits n := by
  intro hmem
  obtain ⟨c, hc, hzero⟩ := List.mem_map.mp hmem
  obtain ⟨d, rfl⟩ := exists_digitChar hc
  have hcode := digitChar_code d
  have hvalue := congrArg UInt8.toNat hzero
  rw [UInt8.toNat_ofNat', UInt8.toNat_zero] at hvalue
  omega

theorem length_hexDigits_le {n width : ℕ} (hwidth : 0 < width) (hn : n < 16 ^ width) :
    (hexDigits n).length ≤ width := by
  rwa [hexDigits, List.length_map, Nat.length_toDigits_le_iff (by decide) hwidth]

theorem length_padded {fill : UInt8} {width : ℕ} {digits : Bytes} (h : digits.length ≤ width) :
    (padded fill width digits).length = width := by
  rw [padded, List.length_append, List.length_replicate, Nat.sub_add_cancel h]

theorem zero_not_mem_padded {fill : UInt8} (hfill : fill ≠ 0) (width n : ℕ) :
    0 ∉ padded fill width (hexDigits n) := by
  rw [padded, List.mem_append, List.mem_replicate, not_or]
  exact ⟨fun h => hfill h.2.symm, zero_not_mem_hexDigits n⟩

theorem length_columnText {i : ℕ} (hi : i < bytesPerLine) : (columnText i).length = 3 :=
  length_padded (length_hexDigits_le (by decide) (hi.trans (by decide)))

theorem length_labelText (i : ℕ) : (labelText i).length = 10 := by
  have hdigits : (padded 48 8 (hexDigits ((i / bytesPerLine + 1) % 2 ^ 32))).length = 8 :=
    length_padded (length_hexDigits_le (by decide) (Nat.mod_lt _ (by decide)))
  rw [labelText, List.length_cons, List.length_append, hdigits]
  rfl

theorem length_byteText (c : UInt8) : (byteText c).length = 3 := by
  have hdigits : (padded 48 2 (hexDigits c.toNat)).length = 2 :=
    length_padded (length_hexDigits_le (by decide) c.toNat_lt)
  rw [byteText, List.length_cons, hdigits]

theorem pieces_texts {data : Bytes} {piece : List Bytes} (hpiece : piece ∈ pieces data)
    {text : Bytes} (htext : text ∈ piece) : 0 ∉ text ∧ text.length ≤ 10 := by
  rw [pieces, List.mem_append] at hpiece
  rcases hpiece with hcolumn | hrow
  · obtain ⟨i, hi, rfl⟩ := List.mem_map.mp hcolumn
    rw [List.mem_singleton.mp htext, length_columnText (List.mem_range.mp hi)]
    exact ⟨zero_not_mem_padded (by decide) 3 i, by decide⟩
  · obtain ⟨i, hi, rfl⟩ := List.mem_mapIdx.mp hrow
    have hkind : text = labelText i ∨ text = byteText data[i] := by
      split_ifs at htext
      · simpa using htext
      · exact .inr (List.mem_singleton.mp htext)
    rcases hkind with rfl | rfl
    · refine ⟨?_, (length_labelText i).le⟩
      simp [labelText, zero_not_mem_padded]
    · refine ⟨?_, (length_byteText _).trans_le (by decide)⟩
      simp [byteText, zero_not_mem_padded]

theorem pieces_short (data : Bytes) :
    ∀ piece ∈ pieces data, ∀ text ∈ piece, text.length < 2 ^ 31 :=
  fun _ hpiece _ htext => (pieces_texts hpiece htext).2.trans_lt (by decide)

theorem pieces_append (data : Bytes) (c : UInt8) :
    pieces (data ++ [c]) = pieces data ++
      [if data.length % bytesPerLine = 0 then [labelText data.length, byteText c]
        else [byteText c]] := by
  simp only [pieces, rows, List.mapIdx_append, List.mapIdx_singleton, Nat.zero_add,
    List.append_assoc]

theorem length_dumpText (data : Bytes) : (dumpText data).length = dumpLength data.length := by
  induction data using List.reverseRecOn with
  | nil => decide +kernel
  | append_singleton data c ih =>
      rw [dumpText, List.length_append] at ih ⊢
      rw [pieces_append, List.flatten_append, List.flatten_append, List.length_append,
        ← Nat.add_assoc, ih, List.length_append]
      unfold dumpLength bytesPerLine
      split_ifs
      · simp only [List.flatten_cons, List.flatten_nil, List.append_nil, List.length_append,
          length_labelText, length_byteText, List.length_singleton]
        omega
      · simp only [List.flatten_cons, List.flatten_nil, List.append_nil, length_byteText,
          List.length_singleton]
        omega

theorem zero_not_mem_dumpText (data : Bytes) : 0 ∉ dumpText data := by
  rw [dumpText, List.mem_append, not_or]
  refine ⟨by decide, fun hmem => ?_⟩
  obtain ⟨text, htext, hzero⟩ := List.mem_flatten.mp hmem
  obtain ⟨piece, hpiece, htext⟩ := List.mem_flatten.mp htext
  exact (pieces_texts hpiece htext).1 hzero

/-! ## What has been printed -/

/-- The text so far, cut to a size, has been counted, and its NUL stands behind what has
been counted. -/
structure Dumped (total size : ℕ) (done : Bytes) (s : DumpState) : Prop where
  length : s.buf.length = total
  offset : s.offset = min done.length (size - 1)
  nul : s.buf[s.offset]? = some 0
  whole : done.length < size → done <+: s.buf

variable {total size : ℕ} {done text : Bytes} {s : DumpState}

theorem exists_printAt_eq {room : ℕ} (hlen : s.buf.length = total)
    (htotal : toInt (total - s.offset) = room) (hroom : 0 < room) (htext : text.length < 2 ^ 31) :
    ∃ printed, printAt s text = .ok ⟨s.offset + min text.length (room - 1),
        s.buf.take s.offset ++ printed⟩ ∧
      printed.length = total - s.offset ∧
      (2 ≤ total - s.offset ∨ s.buf[s.offset]? = some 0 →
        printed[min text.length (room - 1)]? = some 0) ∧
      (text.length < room → text <+: printed) := by
  have hsub : (s.buf.drop s.offset).length = total - s.offset := by
    rw [List.length_drop, hlen]
  obtain ⟨printed, hret, hprinted, hnul, hwhole⟩ :=
    exists_strPrintf_eq (hsub.symm ▸ htotal) hroom htext
  refine ⟨printed, ?_, hprinted.trans hsub, fun h => hnul ?_, hwhole⟩
  · rw [printAt, hret]
    rfl
  · rwa [hsub, List.getElem?_drop, Nat.add_zero]

/-- The offset is that of all that has been printed, as far as there is room. -/
theorem offset_printed (before printed : ℕ) {size : ℕ} (hsize : 0 < size) :
    min before (size - 1) + min printed (size - min before (size - 1) - 1) =
      min (before + printed) (size - 1) := by
  omega

theorem Dumped.of_print (htotal : toInt total = size) (hlen : s.buf.length = total)
    (hsize : 0 < size) (hoffset : s.offset = min done.length (size - 1))
    (hnul : 2 ≤ total - s.offset ∨ s.buf[s.offset]? = some 0)
    (hwhole : done.length < size → done <+: s.buf) (htext : text.length < 2 ^ 31) :
    ∃ s', printAt s text = .ok s' ∧ Dumped total size (done ++ text) s' := by
  obtain ⟨printed, hret, hprinted, hzero, hpart⟩ :=
    exists_printAt_eq hlen (toInt_sub htotal (o := s.offset) (by omega)) (by omega) htext
  have hle := toInt_le total
  have htake : (s.buf.take s.offset).length = s.offset := List.length_take_of_le (by omega)
  refine ⟨_, hret, ?_, ?_, ?_, fun hfits => ?_⟩
  · rw [List.length_append, htake, hprinted]
    omega
  · show s.offset + min text.length (size - s.offset - 1) = _
    rw [List.length_append, hoffset, offset_printed done.length text.length hsize]
  · show (s.buf.take s.offset ++ printed)[s.offset + _]? = some 0
    rw [List.getElem?_append_right (by omega), htake, Nat.add_sub_cancel_left]
    exact hzero hnul
  · rw [List.length_append] at hfits
    have hdone : s.buf.take s.offset = done := by
      rw [hoffset, min_eq_left (by omega)]
      exact (List.prefix_iff_eq_take.mp (hwhole (by omega))).symm
    rw [hdone]
    exact List.prefix_append_right_inj _ |>.mpr (hpart (by omega))

theorem Dumped.print (htotal : toInt total = size) (hsize : 0 < size)
    (h : Dumped total size done s) (htext : text.length < 2 ^ 31) :
    ∃ s', printAt s text = .ok s' ∧ Dumped total size (done ++ text) s' :=
  Dumped.of_print htotal h.length hsize h.offset (.inr h.nul) h.whole htext

theorem Dumped.printTexts (htotal : toInt total = size) (hsize : 0 < size)
    (h : Dumped total size done s) {texts : List Bytes}
    (htexts : ∀ text ∈ texts, text.length < 2 ^ 31) :
    ∃ s', texts.foldlM printAt s = .ok s' ∧ Dumped total size (done ++ texts.flatten) s' := by
  induction texts generalizing done s with
  | nil => exact ⟨s, rfl, by simpa using h⟩
  | cons text texts ih =>
      rw [List.forall_mem_cons] at htexts
      obtain ⟨s', hprint, hs'⟩ := h.print htotal hsize htexts.1
      obtain ⟨s'', hrest, hs''⟩ := ih hs' htexts.2
      refine ⟨s'', ?_, ?_⟩
      · rw [List.foldlM_cons, hprint]
        exact hrest
      · rwa [List.flatten_cons, ← List.append_assoc]

/-- Either there is room before every piece, or one finds that there is none. -/
theorem Dumped.printPieces (htotal : toInt total = size) (hsize : 0 < size)
    (h : Dumped total size done s) {rest : List (List Bytes)}
    (hrest : ∀ piece ∈ rest, ∀ text ∈ piece, text.length < 2 ^ 31) :
    (∃ s', rest.foldlM printChecked s = .ok s' ∧
        Dumped total size (done ++ rest.flatten.flatten) s' ∧
        ∀ (before : List (List Bytes)) piece after, rest = before ++ piece :: after →
          2 ≤ total - min (done ++ before.flatten.flatten).length (size - 1)) ∨
      ∃ buf', rest.foldlM printChecked s = .error (.ret (-1) buf') ∧ buf'.length = total ∧
        ∃ (before : List (List Bytes)) (piece : List Bytes) (after : List (List Bytes)),
          rest = before ++ piece :: after ∧
          total - min (done ++ before.flatten.flatten).length (size - 1) < 2 := by
  induction rest generalizing done s with
  | nil => exact .inl ⟨s, rfl, by simpa using h, fun before => by simp⟩
  | cons piece rest ih =>
      rw [List.forall_mem_cons] at hrest
      by_cases hroom : 2 ≤ total - s.offset
      · obtain ⟨s', hprint, hs'⟩ := h.printTexts htotal hsize hrest.1
        have hchecked : printChecked s piece = .ok s' := by
          rw [printChecked, h.length, if_neg (by omega), hprint]
        have hflat : ∀ before : List (List Bytes),
            done ++ (piece :: before).flatten.flatten =
              done ++ piece.flatten ++ before.flatten.flatten := by
          intro before
          rw [List.flatten_cons, List.flatten_append, List.append_assoc]
        rw [List.foldlM_cons, hchecked, hflat]
        refine (ih hs' hrest.2).imp ?_ ?_
        · rintro ⟨s'', hfold, hs'', hall⟩
          refine ⟨s'', hfold, hs'', ?_⟩
          rintro (_ | ⟨_, before⟩) piece' after heq
          · simpa [h.offset] using hroom
          · obtain ⟨rfl, htail⟩ := List.cons.inj heq
            rw [hflat]
            exact hall before piece' after htail
        · rintro ⟨buf', hfold, hlen, before, piece', after, heq, hnone⟩
          exact ⟨buf', hfold, hlen, piece :: before, piece', after, by rw [heq]; rfl,
            by rw [hflat]; exact hnone⟩
      · refine .inr ⟨s.buf, ?_, h.length, [], piece, rest, rfl, ?_⟩
        · rw [List.foldlM_cons, printChecked, h.length, if_pos (by omega)]
          rfl
        · simpa [h.offset] using hroom

/-! ## What the dump comes to -/

theorem hexDump_eq {buf data : Bytes} (hbuf : 2 ≤ buf.length) (hdata : data ≠ []) :
    hexDump buf data =
      dumpResult (printAt ⟨0, buf⟩ dumpHead >>= fun s => (pieces data).foldlM printChecked s) := by
  have hlen := List.length_pos_iff.mpr hdata
  rw [hexDump, if_neg (by omega), pieces]
  simp only [List.foldlM_append]

theorem hexDump_of_fold {buf data : Bytes} (hbuf : 2 ≤ buf.length) (hdata : data ≠ [])
    (hhead : printAt ⟨0, buf⟩ dumpHead = .ok s) {r : Except PrintResult DumpState}
    (hfold : (pieces data).foldlM printChecked s = r) : hexDump buf data = dumpResult r := by
  rw [hexDump_eq hbuf hdata, hhead, ← hfold]
  rfl

theorem not_prefix_of_nul {i : ℕ} {buf : Bytes} (hnul : 0 ∉ text) (hi : i < text.length)
    (hzero : buf[i]? = some 0) : ¬text <+: buf := by
  intro hprefix
  have hat := List.prefix_iff_getElem?.mp hprefix i hi
  rw [hzero] at hat
  exact hnul (Option.some.inj hat ▸ List.getElem_mem hi)

theorem prefix_iff_of_dumped {data : Bytes} (h : Dumped total size (dumpText data) s)
    (hsize : 0 < size) : dumpText data <+: s.buf ↔ dumpLength data.length < size := by
  rw [← length_dumpText]
  refine ⟨fun hprefix => ?_, h.whole⟩
  by_contra hlong
  have hoffset : s.offset < (dumpText data).length := by
    rw [h.offset]
    omega
  exact not_prefix_of_nul (zero_not_mem_dumpText data) hoffset h.nul hprefix

/-- What stands before a piece is at most what stands before the last byte. -/
theorem length_before_le {data : Bytes} (hdata : data ≠ []) {before after : List (List Bytes)}
    {piece : List Bytes} (h : pieces data = before ++ piece :: after) :
    (dumpHead ++ before.flatten.flatten).length ≤ dumpLength (data.length - 1) := by
  obtain ⟨front, c, rfl⟩ := (List.eq_nil_or_concat' data).resolve_left hdata
  rw [pieces_append] at h
  have hcount : before.length ≤ (pieces front).length := by
    have hlen := congrArg List.length h
    simp only [List.length_append, List.length_cons, List.length_nil] at hlen
    omega
  obtain ⟨between, hbetween⟩ := List.prefix_of_prefix_length_le
    (List.prefix_append before (piece :: after)) (h ▸ List.prefix_append (pieces front) _) hcount
  have hlast : (front ++ [c]).length - 1 = front.length := by simp
  rw [hlast, ← length_dumpText, dumpText, ← hbetween]
  simp only [List.flatten_append, List.length_append]
  omega

theorem exists_before_last {data : Bytes} (hdata : data ≠ []) :
    ∃ (before : List (List Bytes)) (piece : List Bytes), pieces data = before ++ [piece] ∧
      (dumpHead ++ before.flatten.flatten).length = dumpLength (data.length - 1) := by
  obtain ⟨front, c, rfl⟩ := (List.eq_nil_or_concat' data).resolve_left hdata
  have hlast : (front ++ [c]).length - 1 = front.length := by simp
  exact ⟨_, _, pieces_append front c, by rw [hlast, ← length_dumpText, dumpText]⟩

theorem eq_of_toInt {n : ℕ} (hn : toInt n = size) (hsize : 0 < size) (hle : n ≤ 2 ^ 31) :
    n = size := by
  unfold toInt at hn
  rw [Int.bmod_def] at hn
  split at hn <;> omega

theorem Dumped.start {buf : Bytes} (hbuf : 2 ≤ buf.length) (hsize : toInt buf.length = size)
    (hpos : 0 < size) : ∃ s, printAt ⟨0, buf⟩ dumpHead = .ok s ∧
      Dumped buf.length size dumpHead s :=
  have hnone : 0 = min ([] : Bytes).length (size - 1) := (Nat.zero_min _).symm
  Dumped.of_print (s := ⟨0, buf⟩) hsize rfl hpos hnone (.inl hbuf) (fun _ => List.nil_prefix)
    (show dumpHead.length < 2 ^ 31 by decide)

/-- A buffer whose size is positive as an `int`. -/
theorem hexDumpLaw_iff_of_pos {buf data : Bytes} (hbuf : 2 ≤ buf.length) (hdata : data ≠ [])
    (hsize : toInt buf.length = size) (hpos : 0 < size) :
    HexDumpLaw buf data ↔ DumpFits buf.length data.length := by
  obtain ⟨s, hhead, hs⟩ := Dumped.start hbuf hsize hpos
  have hsmall : buf.length ≤ 2 ^ 31 → buf.length = size := eq_of_toInt hsize hpos
  have hle := toInt_le buf.length
  have hlt := toInt_lt buf.length
  rcases hs.printPieces hsize hpos (pieces_short data) with
    ⟨s', hfold, hs', hroom⟩ | ⟨buf', hfold, hlen, before, piece, after, hsplit, hnone⟩
  · have hret := hexDump_of_fold hbuf hdata hhead hfold
    obtain ⟨before, piece, hsplit, hbefore⟩ := exists_before_last hdata
    have hlast := hroom before piece [] hsplit
    rw [hbefore] at hlast
    have hrefused : ¬(buf.length ≤ 2 ^ 31 ∧
        (buf.length ≤ dumpLength (data.length - 1) + 1 ∨ buf.length = 2 ^ 31)) := by
      rintro ⟨hle, hshort | hhalf⟩
      · have hsame := hsmall hle
        omega
      · have hsame := hsmall hle
        omega
    have hlaw : HexDumpLaw buf data ↔ dumpText data <+: s'.buf := by
      constructor
      · rintro ⟨n, buf'', hret', -, hn⟩
        obtain ⟨rfl, rfl⟩ := PrintResult.ret.inj (hret.symm.trans hret')
        exact (hn.resolve_left (by omega)).2
      · exact fun hprefix => ⟨_, _, hret, hs'.length, .inr ⟨Int.natCast_nonneg _, hprefix⟩⟩
    rw [hlaw, prefix_iff_of_dumped hs' hpos, DumpFits, hsize, or_iff_left hrefused]
    exact Nat.cast_lt.symm
  · have hret := hexDump_of_fold hbuf hdata hhead hfold
    have hbefore := length_before_le hdata hsplit
    have hshort : buf.length = size := by omega
    refine iff_of_true ⟨-1, buf', hret, hlen, .inl rfl⟩ (.inr ⟨?_, .inl ?_⟩)
    · omega
    · omega

/-! ## Sizes that are not -/

/-- The offset has run far ahead of the text, and the size behind it is 1 as an `int`. -/
structure Astray (total : ℕ) (s : DumpState) : Prop where
  length : s.buf.length = total
  offset : s.offset = 2 ^ 31 - 1
  nul : s.buf[8]? = some 0

theorem exists_foldlM_ok {α : Type*} {P : DumpState → Prop}
    {f : DumpState → α → Except PrintResult DumpState} {xs : List α}
    (hf : ∀ x ∈ xs, ∀ s, P s → ∃ s', f s x = .ok s' ∧ P s') (hs : P s) :
    ∃ s', xs.foldlM f s = .ok s' ∧ P s' := by
  induction xs generalizing s with
  | nil => exact ⟨s, rfl, hs⟩
  | cons x xs ih =>
      rw [List.forall_mem_cons] at hf
      obtain ⟨s', hstep, hs'⟩ := hf.1 s hs
      obtain ⟨s'', hfold, hs''⟩ := ih hf.2 hs'
      refine ⟨s'', ?_, hs''⟩
      rw [List.foldlM_cons, hstep]
      exact hfold

theorem Astray.print (htotal : toInt (total - (2 ^ 31 - 1)) = 1) (h : Astray total s)
    (htext : text.length < 2 ^ 31) : ∃ s', printAt s text = .ok s' ∧ Astray total s' := by
  have hle := toInt_le (total - (2 ^ 31 - 1))
  have hroom : toInt (total - s.offset) = (1 : ℕ) := h.offset ▸ htotal
  obtain ⟨printed, hret, hprinted, -, -⟩ := exists_printAt_eq h.length hroom Nat.one_pos htext
  refine ⟨_, hret, ?_, ?_, ?_⟩
  · rw [List.length_append, hprinted, List.length_take, h.length, h.offset]
    omega
  · show s.offset + min text.length 0 = 2 ^ 31 - 1
    rw [Nat.min_zero, h.offset, Nat.add_zero]
  · show (s.buf.take s.offset ++ printed)[8]? = some 0
    rw [List.getElem?_append_left (by rw [List.length_take, h.length, h.offset]; omega),
      List.getElem?_take_of_lt (by rw [h.offset]; decide), h.nul]

theorem Astray.printPieces (htotal : toInt (total - (2 ^ 31 - 1)) = 1)
    (hroom : 2 ≤ total - (2 ^ 31 - 1)) (h : Astray total s) {rest : List (List Bytes)}
    (hrest : ∀ piece ∈ rest, ∀ text ∈ piece, text.length < 2 ^ 31) :
    ∃ s', rest.foldlM printChecked s = .ok s' ∧ Astray total s' := by
  refine exists_foldlM_ok (fun piece hpiece s hs => ?_) h
  rw [printChecked, hs.length, hs.offset, if_neg (by omega)]
  exact exists_foldlM_ok (fun text htext s hs => hs.print htotal (hrest piece hpiece text htext)) hs

theorem printAt_head_of_neg {buf : Bytes} (hbuf : 2 ≤ buf.length) (hsize : toInt buf.length ≤ 0)
    (hpred : toInt (buf.length - 1) < 0) : printAt ⟨0, buf⟩ dumpHead = .error .outside := by
  have hle : toInt buf.length ≤ dumpHead.length := hsize.trans (Int.natCast_nonneg _)
  rw [printAt, List.drop_zero, strPrintf_of_toInt_le hbuf (by decide) hle, if_neg (by omega)]

theorem exists_printAt_head {buf : Bytes} (hbuf : 2 ^ 31 ≤ buf.length)
    (hsize : toInt buf.length ≤ 0) (hpred : toInt (buf.length - 1) = 2 ^ 31 - 1) :
    ∃ s, printAt ⟨0, buf⟩ dumpHead = .ok s ∧ Astray buf.length s := by
  have hle : toInt buf.length ≤ dumpHead.length := hsize.trans (Int.natCast_nonneg _)
  have hlen := FormatBuffer.length_snprintf 0 dumpHead (show 0 < buf.length by omega)
  have hwhole : dumpHead.take (buf.length - 1) = dumpHead :=
    List.take_of_length_le (by rw [dumpHead, List.length_replicate]; omega)
  have hplace : ((2 : ℤ) ^ 31 - 1).toNat = 2 ^ 31 - 1 := by omega
  refine ⟨⟨((0 : ℕ) + ((2 : ℤ) ^ 31 - 1)).toNat, buf.take 0 ++
    (FormatBuffer.snprintf 0 buf dumpHead).set ((2 : ℤ) ^ 31 - 1).toNat 0⟩, ?_, ?_, ?_, ?_⟩
  · rw [printAt, List.drop_zero, strPrintf_of_toInt_le (by omega) (by decide) hle, hpred,
      if_pos (by omega)]
  · rw [List.take_zero, List.nil_append, List.length_set, hlen]
  · rw [Nat.cast_zero, zero_add, hplace]
  · show (buf.take 0 ++ (FormatBuffer.snprintf 0 buf dumpHead).set _ 0)[8]? = some 0
    rw [List.take_zero, List.nil_append, hplace, List.getElem?_set_ne (by omega),
      FormatBuffer.snprintf, hwhole]
    rfl

/-- The size is negative as an `int` and the size before it is not. -/
theorem half_of_toInt {n : ℕ} (hn : 0 < n) (hsize : toInt n ≤ 0) (hbefore : 0 ≤ toInt (n - 1)) :
    n % 2 ^ 32 = 2 ^ 31 ∧ toInt (n - 1) = 2 ^ 31 - 1 := by
  have hsucc : ((n - 1 : ℕ) : ℤ) = n - 1 := by omega
  unfold toInt at *
  rw [hsucc, Int.bmod_def] at *
  split at hsize
  · split at hbefore <;> omega
  · split at hbefore <;> omega

/-- The head is all that is printed, or not even that. -/
theorem hexDumpLaw_iff_of_not_pos {buf data : Bytes} (hbuf : 2 ≤ buf.length) (hdata : data ≠ [])
    (hsize : toInt buf.length ≤ 0) :
    HexDumpLaw buf data ↔ DumpFits buf.length data.length := by
  have hlen : 8 < (dumpText data).length := by
    rw [length_dumpText]
    unfold dumpLength
    omega
  have hfits : DumpFits buf.length data.length ↔ buf.length = 2 ^ 31 := by
    have hmod : 2 ^ 31 ≤ buf.length := by
      by_contra hsmall
      rw [toInt_eq (by omega)] at hsize
      omega
    unfold DumpFits
    omega
  rw [hfits]
  rcases lt_or_ge (toInt (buf.length - 1)) 0 with hneg | hnonneg
  · have hret : hexDump buf data = .outside := by
      rw [hexDump_eq hbuf hdata, printAt_head_of_neg hbuf hsize hneg]
      rfl
    refine iff_of_false ?_ fun hhalf => ?_
    · rintro ⟨n, buf', hret', -⟩
      rw [hret] at hret'
      cases hret'
    · rw [hhalf, toInt_eq (by omega)] at hneg
      omega
  · have hhalf := half_of_toInt (by omega) hsize hnonneg
    obtain ⟨s, hhead, hs⟩ := exists_printAt_head (by omega) hsize hhalf.2
    by_cases hexact : buf.length = 2 ^ 31
    · -- The first column finds no room.
      have hfold : (pieces data).foldlM printChecked s = .error (.ret (-1) s.buf) := by
        obtain ⟨piece, rest, hfirst⟩ : ∃ piece rest, pieces data = piece :: rest := ⟨_, _, rfl⟩
        rw [hfirst, List.foldlM_cons, printChecked, hs.length, hs.offset, if_pos (by omega)]
        rfl
      have hret := hexDump_of_fold hbuf hdata hhead hfold
      exact iff_of_true ⟨-1, s.buf, hret, hs.length, .inl rfl⟩ hexact
    · have hroom : toInt (buf.length - (2 ^ 31 - 1)) = 1 := by
        unfold toInt
        rw [Int.bmod_def]
        split <;> omega
      obtain ⟨s', hfold, hs'⟩ := hs.printPieces hroom (by omega) (pieces_short data)
      have hret := hexDump_of_fold hbuf hdata hhead hfold
      refine iff_of_false ?_ hexact
      rintro ⟨n, buf'', hret', -, hn⟩
      obtain ⟨rfl, rfl⟩ := PrintResult.ret.inj (hret.symm.trans hret')
      exact not_prefix_of_nul (zero_not_mem_dumpText data) hlen hs'.nul
        (hn.resolve_left (by omega)).2

/-- **The dump is complete or refused**, but for sizes that leave room for a part of the last
byte's text, and for sizes that are not the same as an `int`. -/
theorem hexDump_law (buf data : Bytes) :
    HexDumpLaw buf data ↔
      buf.length < 2 ∨ data = [] ∨ DumpFits buf.length data.length := by
  by_cases hbuf : buf.length < 2
  · have hret : hexDump buf data = .ret (-1) buf := if_pos (.inl hbuf)
    exact iff_of_true ⟨-1, buf, hret, rfl, .inl rfl⟩ (.inl hbuf)
  by_cases hdata : data = []
  · have hret : hexDump buf data = .ret (-1) buf := by
      rw [hdata]
      exact if_pos (.inr Nat.one_pos)
    exact iff_of_true ⟨-1, buf, hret, rfl, .inl rfl⟩ (.inr (.inl hdata))
  have hsizes : HexDumpLaw buf data ↔ DumpFits buf.length data.length := by
    rcases le_or_gt (toInt buf.length) 0 with hsize | hsize
    · exact hexDumpLaw_iff_of_not_pos (Nat.le_of_not_lt hbuf) hdata hsize
    · obtain ⟨size, hsize'⟩ := Int.eq_ofNat_of_zero_le hsize.le
      exact hexDumpLaw_iff_of_pos (Nat.le_of_not_lt hbuf) hdata hsize' (by omega)
  rw [hsizes, or_iff_right hbuf, or_iff_right hdata]

/-- There is room for the head and for most of the label, but not for the byte. -/
theorem hexDump_one_byte : ¬HexDumpLaw (List.replicate 64 0) [171] := by
  rintro ⟨n, buf', hret, -, hn⟩
  have hcut : hexDump (List.replicate 64 0) [171] = .ret 63 ((dumpText [171]).take 63 ++ [0]) := by
    decide +kernel
  obtain ⟨rfl, rfl⟩ := PrintResult.ret.inj (hcut.symm.trans hret)
  exact absurd (hn.resolve_left (by decide)).2 (by decide +kernel)

end CommonComponent
