import CommonComponent.HttpLines
import CommonComponent.HttpParser
import Mathlib.Tactic

/-!
# The dump of a request

`OnMessageComplete` dumps the request into the log, if the log is at its debug level.
`Dump` is to show the request and to leave it alone.  It puts a `/` where the path is
empty, and prints its lines through a buffer.

The names of the methods come from the library.
-/

namespace CommonComponent

open FormatBuffer

namespace Req

def versionText (r : Req) : Bytes :=
  ascii " HTTP/" ++ decimal r.majorVersion ++ 46 :: (decimal r.minorVersion ++ crlf)

/-- `"%s %s?%s HTTP/%d.%d\r\n"`, or without the query. -/
def requestLine (methodStr : ℕ → Bytes) (r : Req) : Bytes :=
  if r.query = [] then
    cStr (methodStr r.method) ++ 32 :: (cStr r.path ++ r.versionText)
  else
    cStr (methodStr r.method) ++ 32 :: (cStr r.path ++ 63 :: (cStr r.query ++ r.versionText))

/-- `Dump`: what it returns, and what it makes of the request. -/
def dumpText (methodStr : ℕ → Bytes) (behind : Bytes → ℕ → UInt8) (r : Req) : Bytes × Req :=
  let r := r.dump
  let s := printLines 0 behind ([], formatBuf)
    (r.requestLine methodStr :: r.headers.toList.map headerLine)
  (s.1 ++ crlf ++ r.body, r)

def requestText (methodStr : ℕ → Bytes) (r : Req) : Bytes :=
  if r.query = [] then cStr (methodStr r.method) ++ 32 :: (r.path ++ r.versionText)
  else cStr (methodStr r.method) ++ 32 :: (r.path ++ 63 :: (r.query ++ r.versionText))

/-- `Dump` shows the request and leaves it alone, and the path that is dispatched does not
depend on the log. -/
structure DumpFaithful (methodStr : ℕ → Bytes) (r : Req) : Prop where
  text : ∀ behind, (r.dumpText methodStr behind).1 =
    r.requestText methodStr ++ r.headers.toList.flatMap headerText ++ crlf ++ r.body
  unchanged : ∀ behind, (r.dumpText methodStr behind).2 = r
  dispatched : ∀ (s : HttpParse) (env env' : HttpEnv), s.parser.req = r →
    (s.onMessageComplete env).parser.req.finish.path =
      (s.onMessageComplete env').parser.req.finish.path

/-- There is a path; every line leaves room for the terminator, and none of the strings in
it has a NUL. -/
structure DumpOk (methodStr : ℕ → Bytes) (r : Req) : Prop where
  path_ne : r.path ≠ []
  path : 0 ∉ r.path
  query : 0 ∉ r.query
  request : (r.requestText methodStr).length < 1024
  headers : ∀ header ∈ r.headers.toList, HeaderFits header

variable (methodStr : ℕ → Bytes) (r : Req)

theorem dump_of_ne {r : Req} (hpath : r.path ≠ []) : r.dump = r := if_neg hpath

theorem dump_path_ne : r.dump.path ≠ [] := by
  unfold dump
  split_ifs with hpath
  · exact (by decide : ascii "/" ≠ [])
  · exact hpath

theorem nul_not_mem_versionText : 0 ∉ r.versionText := by
  have hmajor : 0 ∉ decimal r.majorVersion := not_mem_decimal (by decide)
  have hminor : 0 ∉ decimal r.minorVersion := not_mem_decimal (by decide)
  have hname : 0 ∉ ascii " HTTP/" := by decide
  simp [versionText, hmajor, hminor, hname, crlf]

theorem versionText_cons : ∃ u, r.versionText = 32 :: 72 :: u := ⟨_, rfl⟩

theorem printed_request (cap : ℕ) :
    Printed 0 cap (r.requestLine methodStr) (r.requestText methodStr) := by
  have hmethod : 0 ∉ cStr (methodStr r.method) := TextPieces.not_mem_before 0 _
  have hversion := r.nul_not_mem_versionText
  obtain ⟨version, hend⟩ := r.versionText_cons
  unfold requestLine requestText
  by_cases hpath : 0 ∈ r.path
  · split_ifs with hquery
    · have hcut : Printed 0 cap ((cStr (methodStr r.method) ++ [32]) ++
          (cStr r.path ++ 32 :: 72 :: version))
          ((cStr (methodStr r.method) ++ [32]) ++ (r.path ++ r.versionText)) :=
        printed_cut _ hpath (by decide) _ _
      rwa [List.append_assoc, List.append_assoc, ← hend] at hcut
    · obtain ⟨b, u, hbehind⟩ : ∃ b u, cStr r.query ++ r.versionText = b :: u :=
        List.exists_cons_of_ne_nil (by simp [hend])
      have hcut : Printed 0 cap ((cStr (methodStr r.method) ++ [32]) ++
          (cStr r.path ++ 63 :: b :: u))
          ((cStr (methodStr r.method) ++ [32]) ++ (r.path ++ 63 :: (r.query ++ r.versionText))) :=
        printed_cut _ hpath (by decide) _ _
      rw [List.append_assoc, List.append_assoc, ← hbehind] at hcut
      exact hcut
  · rw [cStr_eq_self hpath]
    split_ifs with hquery
    · exact .whole (by simp [hmethod, hpath, hversion])
    · by_cases hnul : 0 ∈ r.query
      · have hcut : Printed 0 cap ((cStr (methodStr r.method) ++ 32 :: (r.path ++ [63])) ++
            (cStr r.query ++ 32 :: 72 :: version))
            ((cStr (methodStr r.method) ++ 32 :: (r.path ++ [63])) ++
              (r.query ++ r.versionText)) := printed_cut _ hnul (by decide) _ _
        rw [← hend] at hcut
        simpa only [List.append_assoc, List.cons_append, List.nil_append] using hcut
      · rw [cStr_eq_self hnul]
        exact .whole (by simp [hmethod, hpath, hnul, hversion])

theorem requestLine_eq_iff :
    r.requestLine methodStr = r.requestText methodStr ∧
        (r.requestLine methodStr).length < 1024 ↔
      0 ∉ r.path ∧ 0 ∉ r.query ∧ (r.requestText methodStr).length < 1024 := by
  constructor
  · rintro ⟨heq, hshort⟩
    have hlen := congrArg List.length heq
    have hpath := length_cStr_le r.path
    have hquery := length_cStr_le r.query
    unfold requestLine requestText at hlen
    refine ⟨?_, ?_, heq ▸ hshort⟩
    · split_ifs at hlen with hnone
      · simp only [List.length_append, List.length_cons] at hlen
        exact not_mem_of_length_cStr (by omega)
      · simp only [List.length_append, List.length_cons] at hlen
        exact not_mem_of_length_cStr (by omega)
    · split_ifs at hlen with hnone
      · simp [hnone]
      · simp only [List.length_append, List.length_cons] at hlen
        exact not_mem_of_length_cStr (by omega)
  · rintro ⟨hpath, hquery, hshort⟩
    have heq : r.requestLine methodStr = r.requestText methodStr := by
      rw [requestLine, requestText, cStr_eq_self hpath, cStr_eq_self hquery]
    exact ⟨heq, heq ▸ hshort⟩

theorem dump_text_iff {r : Req} (hpath : r.path ≠ []) :
    (∀ behind, (r.dumpText methodStr behind).1 =
      r.requestText methodStr ++ r.headers.toList.flatMap headerText ++ crlf ++ r.body) ↔
      (r.requestLine methodStr = r.requestText methodStr ∧
          (r.requestLine methodStr).length < 1024) ∧
        ∀ header ∈ r.headers.toList, HeaderFits header := by
  have htext := head_eq_iff (r.printed_request methodStr 1024)
    (fun header (_ : header ∈ r.headers.toList) => printed_header 1024 header) (crlf ++ r.body)
  simp only [← List.append_assoc, headerLine_eq_iff] at htext
  rw [← htext]
  simp only [dumpText, dump_of_ne hpath]

/-- The dump of a request is faithful exactly when there is a path, and every line of the
head is text that the buffer holds. -/
theorem dumpFaithful_iff_dumpOk : r.DumpFaithful methodStr ↔ r.DumpOk methodStr := by
  constructor
  · intro hfaithful
    have hpath : r.path ≠ [] := by
      have hsame : r.dump = r := hfaithful.unchanged fun _ _ => 0
      rw [← hsame]
      exact r.dump_path_ne
    obtain ⟨hline, hheaders⟩ := (dump_text_iff methodStr hpath).mp hfaithful.text
    obtain ⟨hnul, hquery, hshort⟩ := (r.requestLine_eq_iff methodStr).mp hline
    exact ⟨hpath, hnul, hquery, hshort, hheaders⟩
  · intro hok
    have hline := (r.requestLine_eq_iff methodStr).mpr ⟨hok.path, hok.query, hok.request⟩
    refine ⟨(dump_text_iff methodStr hok.path_ne).mpr ⟨hline, hok.headers⟩, ?_, ?_⟩
    · exact fun _ => dump_of_ne hok.path_ne
    · intro s env env' hs
      have hsame : ∀ env : HttpEnv, (s.onMessageComplete env).parser.req = r := by
        intro env
        simp only [HttpParse.onMessageComplete, hs, dump_of_ne hok.path_ne, ite_self]
      rw [hsame env, hsame env']

/-- `GET http://h HTTP/1.1`: the request has no path, and the dump gives it one. -/
def noPath : Req := { init with url := ascii "http://h", schema := ascii "http", host := ascii "h" }

theorem not_dumpFaithful_noPath :
    ¬ ∀ (methodStr : ℕ → Bytes) (r : Req), r.DumpFaithful methodStr := by
  intro hall
  have hunchanged := (hall (fun _ => ascii "GET") noPath).unchanged fun _ _ => 0
  have hpath : (noPath.dumpText (fun _ => ascii "GET") fun _ _ => 0).2.path = ascii "/" := rfl
  rw [hunchanged] at hpath
  exact absurd hpath (by decide)

end Req

end CommonComponent
