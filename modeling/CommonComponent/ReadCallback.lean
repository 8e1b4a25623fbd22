import CommonComponent.LabelledRun
import Mathlib.Tactic

/-!
# What happens behind a close

`NormalConn::ReadCallback` reads until there is nothing more, gives each chunk to
one logic module after the other, and a `WebLogic` goes through the frames of the
chunk.  Any handler called on the way may close the connection, which destroys the
connection object and the parsers that `WebLogic` keeps for it.

The model follows one connection and notes each call that is made for it and each
use of one of its objects.  What the bytes of a chunk come to and which handlers
close is an input.  The read loop looks the connection up after every chunk,
`http::Parser` and `ProtoLogic` after every message; `ThreadSink` and the frame
parser do not, so a run is in order exactly when no handler closes under these two.
-/

namespace CommonComponent

open LabelledRun

inductive UseNote
  | onRecvClientData (logic : ℕ)
  | onClientMsg
  | onHTTPReq
  | onWSMsg (webLogic : ℕ)
  | usesConn
  | usesHTTPParser
  | usesWSParser
  | destroyed
deriving DecidableEq

/-- What the frame parser reports.  At the end of a final TEXT or BINARY message each
web logic is called, and closes the connection or not. -/
inductive WSReport
  | frameHeader
  | frameBody
  | frameEnd
  | controlEnd
  | msgEnd (webLogics : List Bool)

/-- What the HTTP parser makes of a chunk: no whole request, an error, a request
with a handler that closes the connection or not, or an upgrade, which is accepted
or answered with a close, and what the frame parser reports of the rest. -/
inductive HTTPReport
  | partReq
  | failed
  | noHandler
  | req (closes : Bool)
  | upgrade (accepted : Bool) (rest : List WSReport)

/-- What one module does with a chunk: a plain one closes or not, a `ProtoLogic`
has a handler for each message and closes where the data behind them is refused, a
`WebLogic` runs one of its parsers. -/
inductive LogicServe
  | logic (closes : Bool)
  | proto (msgs : List Bool) (refused : Bool)
  | http (report : HTTPReport)
  | ws (reports : List WSReport)

/-- What a `read` returns; `data` goes to one module after the other. -/
inductive ReadResult
  | data (serves : List LogicServe)
  | eof
  | interrupted
  | again
  | reset
  | failed

inductive ReadAction
  | readCallback (evClosed evRead stopping calm : Bool) (reads : List ReadResult)
  | closeClient

/-- Whether the connection is there, and what has happened, oldest first. -/
structure ReadRun where
  alive : Bool
  log : List UseNote

namespace ReadRun

def init : ReadRun where
  alive := true
  log := []

def note (s : ReadRun) (n : UseNote) : ReadRun := { s with log := s.log ++ [n] }

def found (s : ReadRun) (f : ReadRun → ReadRun) : ReadRun :=
  if s.alive then f s else s

def closeClient (s : ReadRun) : ReadRun :=
  s.found fun s => { alive := false, log := s.log ++ [.destroyed] }

def handled (s : ReadRun) (closes : Bool) : ReadRun :=
  if closes then s.closeClient else s

/-- The loop over the web logics of `OnWSMsg`. -/
def onWSMsg (s : ReadRun) : ℕ → List Bool → ReadRun
  | _, [] => s
  | webLogic, closes :: rest =>
      ((s.note (.onWSMsg webLogic)).handled closes).onWSMsg (webLogic + 1) rest

def wsReport (s : ReadRun) : WSReport → ReadRun
  | .frameHeader => s.note .usesWSParser
  | .frameBody => s.note .usesWSParser
  | .frameEnd => s.note .usesWSParser
  | .controlEnd => (s.note .usesWSParser).found (·.note .usesConn)
  | .msgEnd webLogics =>
      (s.note .usesWSParser).found fun s => (s.note .usesConn).onWSMsg 0 webLogics

/-- `ws::Parser::Execute`; the frame parser uses its struct until it returns. -/
def wsExecute (s : ReadRun) (reports : List WSReport) : ReadRun :=
  (reports.foldl wsReport (s.note .usesWSParser)).note .usesWSParser

/-- `http::Parser::Execute`. -/
def httpExecute (s : ReadRun) (report : HTTPReport) : ReadRun :=
  let parsed := s.note .usesHTTPParser
  match report with
  | .partReq => parsed
  | .failed => parsed
  | .noHandler => (parsed.note .usesConn).note .usesHTTPParser
  | .req closes =>
      (((parsed.note .usesConn).note .onHTTPReq).handled closes).found
        (·.note .usesHTTPParser)
  | .upgrade accepted rest =>
      let checked := (parsed.note .usesConn).note .usesWSParser
      if accepted then (checked.note .usesConn).wsExecute rest
      else checked.closeClient

/-- The loop of `ProtoLogic::OnRecvClientData`; what is left of the data is read
only where the connection is still there. -/
def protoMsgs (s : ReadRun) (refused : Bool) : List Bool → ReadRun
  | [] => (s.note .usesConn).handled refused
  | closes :: rest =>
      (((s.note .usesConn).note .onClientMsg).handled closes).found fun s =>
        (s.note .usesConn).protoMsgs refused rest

/-- One module is called; what it keeps for the connection it finds by the id. -/
def serve (s : ReadRun) (logic : ℕ) (serve : LogicServe) : ReadRun :=
  let called := s.note (.onRecvClientData logic)
  match serve with
  | .logic closes => called.handled closes
  | .proto msgs refused => called.found (·.protoMsgs refused msgs)
  | .http report => called.found (·.httpExecute report)
  | .ws reports => called.found (·.wsExecute reports)

/-- `ThreadSink::OnRecvClientData`. -/
def onRecvClientData (s : ReadRun) : ℕ → List LogicServe → ReadRun
  | _, [] => s
  | logic, serve :: rest => (s.serve logic serve).onRecvClientData (logic + 1) rest

/-- The read loop, with whether it finds the connection closed. -/
def readLoop (s : ReadRun) : List ReadResult → ReadRun × Bool
  | [] => (s, false)
  | result :: rest =>
      if !s.alive then (s, false)
      else
        match result with
        | .data serves => ((s.note .usesConn).onRecvClientData 0 serves).readLoop rest
        | .eof => (s, true)
        | .interrupted => s.readLoop rest
        | .again => (s, false)
        | .reset => (s, true)
        | .failed => (s, false)

/-- `ThreadSink::OnClientClosed`. -/
def onClientClosed (s : ReadRun) : ReadRun := (s.note .usesConn).closeClient

def readCallback (s : ReadRun) (evClosed evRead stopping calm : Bool)
    (reads : List ReadResult) : ReadRun :=
  if !s.alive then s
  else if evClosed then s.onClientClosed
  else if !evRead then s
  else if stopping then s
  else if !calm then (s.note .usesConn).onClientClosed
  else
    match (s.note .usesConn).readLoop reads with
    | (s', true) => s'.onClientClosed
    | (s', false) => s'

def step (s : ReadRun) : ReadAction → Option ReadRun
  | .readCallback evClosed evRead stopping calm reads =>
      some (s.readCallback evClosed evRead stopping calm reads)
  | .closeClient => some s.closeClient

end ReadRun

def WSReport.closes : WSReport → Bool
  | .msgEnd webLogics => webLogics.any id
  | _ => false

def HTTPReport.closes : HTTPReport → Bool
  | .req closes => closes
  | .upgrade accepted rest => !accepted || rest.any (·.closes)
  | _ => false

def LogicServe.closes : LogicServe → Bool
  | .logic closes => closes
  | .proto msgs refused => msgs.any id || refused
  | .http report => report.closes
  | .ws reports => reports.any (·.closes)

/-- The connection is closed while the frame parser is running. -/
def LogicServe.closesInWS : LogicServe → Bool
  | .http (.upgrade true rest) => rest.any (·.closes)
  | .ws reports => reports.any (·.closes)
  | _ => false

/-- Only the last module closes the connection, and not from an `OnWSMsg`. -/
def ClosesLast : List LogicServe → Prop
  | [] => True
  | serve :: rest =>
      if serve.closes then rest = [] ∧ serve.closesInWS = false
      else ClosesLast rest

/-- So it is in every chunk of the read loop, up to the one that closes. -/
def ReadsCloseLast : List ReadResult → Prop
  | .data serves :: rest =>
      ClosesLast serves ∧ (serves.any (·.closes) = false → ReadsCloseLast rest)
  | .interrupted :: rest => ReadsCloseLast rest
  | _ => True

namespace ReadRun

/-- The connection is destroyed at most as the last thing. -/
def NothingAfter (s : ReadRun) : Prop :=
  ∀ before after, s.log = before ++ .destroyed :: after → after = []

def ClosesLast (s : ReadRun) : ReadAction → Prop
  | .readCallback evClosed evRead stopping calm reads =>
      s.alive = true → evClosed = false → evRead = true → stopping = false →
        calm = true → ReadsCloseLast reads
  | .closeClient => True

structure Live (s : ReadRun) : Prop where
  alive : s.alive = true
  log : .destroyed ∉ s.log

structure Gone (s : ReadRun) : Prop where
  alive : s.alive = false
  log : ∃ before, s.log = before ++ [.destroyed] ∧ .destroyed ∉ before

theorem nothingAfter_of_not_mem {s : ReadRun} (h : .destroyed ∉ s.log) :
    s.NothingAfter := by
  intro before after hlog
  exact absurd (hlog ▸ by simp) h

theorem Gone.nothingAfter {s : ReadRun} (h : s.Gone) : s.NothingAfter := by
  obtain ⟨before, hlog, hnot⟩ := h.log
  intro before' after hlog'
  rw [hlog] at hlog'
  rcases List.eq_nil_or_concat after with rfl | ⟨after', last, rfl⟩
  · rfl
  · rw [List.concat_eq_append, ← List.cons_append, ← List.append_assoc] at hlog'
    have hbefore := (List.append_inj' hlog' rfl).1
    exact absurd (hbefore ▸ by simp) hnot

theorem Gone.mem {s : ReadRun} (h : s.Gone) : .destroyed ∈ s.log := by
  obtain ⟨before, hlog, -⟩ := h.log
  simp [hlog]

theorem not_nothingAfter {s s' : ReadRun} {n : UseNote} (hgone : .destroyed ∈ s.log)
    (hlog : (s.note n).log <+: s'.log) : ¬s'.NothingAfter := by
  intro hnothing
  obtain ⟨before, after, hsplit⟩ := List.append_of_mem hgone
  obtain ⟨more, hmore⟩ := hlog
  have hend := hnothing before (after ++ [n] ++ more) (by
    rw [← hmore]
    simp [note, hsplit])
  simp at hend

theorem NothingAfter.of_prefix {s s' : ReadRun} (h : s'.NothingAfter)
    (hlog : s.log <+: s'.log) : s.NothingAfter := by
  intro before after hsplit
  obtain ⟨more, hmore⟩ := hlog
  have hend := h before (after ++ more) (by
    rw [← hmore, hsplit, List.append_assoc, List.cons_append])
  exact (List.append_eq_nil_iff.mp hend).1

/-! ### Nothing is taken back -/

theorem log_note (s : ReadRun) (n : UseNote) : s.log <+: (s.note n).log :=
  List.prefix_append _ _

theorem log_found {f : ReadRun → ReadRun} (hf : ∀ s, s.log <+: (f s).log)
    (s : ReadRun) : s.log <+: (s.found f).log := by
  unfold found
  split_ifs
  · exact hf s
  · exact List.prefix_rfl

theorem log_closeClient (s : ReadRun) : s.log <+: s.closeClient.log :=
  log_found (fun _ => List.prefix_append _ _) s

theorem log_handled (s : ReadRun) (closes : Bool) :
    s.log <+: (s.handled closes).log := by
  cases closes with
  | true => exact s.log_closeClient
  | false => exact List.prefix_rfl

theorem log_onWSMsg (webLogics : List Bool) (s : ReadRun) (webLogic : ℕ) :
    s.log <+: (s.onWSMsg webLogic webLogics).log := by
  induction webLogics generalizing s webLogic with
  | nil => exact List.prefix_rfl
  | cons closes rest ih =>
      exact ((s.log_note _).trans (log_handled _ closes)).trans (ih _ _)

theorem log_wsReport (s : ReadRun) (report : WSReport) :
    s.log <+: (s.wsReport report).log := by
  cases report with
  | controlEnd => exact (s.log_note _).trans (log_found (fun s => s.log_note _) _)
  | msgEnd webLogics =>
      refine (s.log_note _).trans (log_found (fun s => ?_) _)
      exact (s.log_note _).trans (log_onWSMsg webLogics _ _)
  | _ => exact s.log_note _

theorem log_wsReports (reports : List WSReport) (s : ReadRun) :
    s.log <+: (reports.foldl wsReport s).log := by
  induction reports generalizing s with
  | nil => exact List.prefix_rfl
  | cons report rest ih => exact (s.log_wsReport report).trans (ih _)

theorem log_wsExecute (reports : List WSReport) (s : ReadRun) :
    s.log <+: (s.wsExecute reports).log :=
  ((s.log_note _).trans (log_wsReports reports _)).trans (log_note _ _)

theorem log_httpExecute (report : HTTPReport) (s : ReadRun) :
    s.log <+: (s.httpExecute report).log := by
  have hparsed := s.log_note .usesHTTPParser
  have hconn := hparsed.trans (log_note _ .usesConn)
  cases report with
  | partReq => exact hparsed
  | failed => exact hparsed
  | noHandler => exact hconn.trans (log_note _ _)
  | req closes =>
      have hcalled := (hconn.trans (log_note _ .onHTTPReq)).trans (log_handled _ closes)
      exact hcalled.trans (log_found (fun s => s.log_note _) _)
  | upgrade accepted rest =>
      have hchecked := hconn.trans (log_note _ .usesWSParser)
      cases accepted with
      | true => exact (hchecked.trans (log_note _ _)).trans (log_wsExecute rest _)
      | false => exact hchecked.trans (log_closeClient _)

theorem log_protoMsgs (refused : Bool) (msgs : List Bool) (s : ReadRun) :
    s.log <+: (s.protoMsgs refused msgs).log := by
  induction msgs generalizing s with
  | nil => exact (s.log_note _).trans (log_handled _ refused)
  | cons closes rest ih =>
      have hcalled := ((s.log_note .usesConn).trans (log_note _ .onClientMsg)).trans
        (log_handled _ closes)
      exact hcalled.trans (log_found (fun s => (s.log_note _).trans (ih _)) _)

/-- A module that is called notes so, whatever it does then. -/
theorem log_serve (s : ReadRun) (logic : ℕ) (serve : LogicServe) :
    (s.note (.onRecvClientData logic)).log <+: (s.serve logic serve).log := by
  cases serve with
  | logic closes => exact log_handled _ closes
  | proto msgs refused => exact log_found (log_protoMsgs refused msgs) _
  | http report => exact log_found (log_httpExecute report) _
  | ws reports => exact log_found (log_wsExecute reports) _

theorem log_onRecvClientData (serves : List LogicServe) (s : ReadRun) (logic : ℕ) :
    s.log <+: (s.onRecvClientData logic serves).log := by
  induction serves generalizing s logic with
  | nil => exact List.prefix_rfl
  | cons serve rest ih =>
      exact ((s.log_note _).trans (s.log_serve logic serve)).trans (ih _ _)

theorem log_readLoop (reads : List ReadResult) (s : ReadRun) :
    s.log <+: (s.readLoop reads).1.log := by
  induction reads generalizing s with
  | nil => exact List.prefix_rfl
  | cons result rest ih =>
      unfold readLoop
      split_ifs
      · exact List.prefix_rfl
      · cases result with
        | data serves =>
            exact ((s.log_note _).trans (log_onRecvClientData serves _ _)).trans (ih _)
        | interrupted => exact ih s
        | _ => exact List.prefix_rfl

/-! ### What is done with a chunk -/

theorem found_of_alive {s : ReadRun} (h : s.alive = true) (f : ReadRun → ReadRun) :
    s.found f = f s := if_pos h

theorem Live.note {s : ReadRun} (h : s.Live) {n : UseNote} (hn : n ≠ .destroyed) :
    (s.note n).Live where
  alive := h.alive
  log := by simp [ReadRun.note, h.log, Ne.symm hn]

theorem Live.closeClient {s : ReadRun} (h : s.Live) : s.closeClient.Gone := by
  rw [ReadRun.closeClient, found_of_alive h.alive]
  exact ⟨rfl, s.log, rfl, h.log⟩

/-- The objects of a connection that is there have been used; where `closes`, it has
been closed as the last thing. -/
def Served (closes : Bool) (s : ReadRun) : Prop :=
  if closes then s.Gone else s.Live

theorem Live.handled {s : ReadRun} (h : s.Live) (closes : Bool) :
    (s.handled closes).Served closes := by
  cases closes with
  | true => exact h.closeClient
  | false => exact h

theorem Served.found {s : ReadRun} {closes closes' : Bool} (h : s.Served closes)
    {f : ReadRun → ReadRun} (hf : s.Live → (f s).Served closes') :
    (s.found f).Served (closes || closes') := by
  cases closes with
  | true =>
      have hgone : s.Gone := h
      have hsame : s.found f = s := if_neg (by simp [hgone.alive])
      rw [hsame]
      exact hgone
  | false =>
      have hlive : s.Live := h
      rw [found_of_alive hlive.alive, Bool.false_or]
      exact hf hlive

/-- The same where something may have been used behind the close. -/
def Used (closes : Bool) (s : ReadRun) : Prop :=
  if closes then .destroyed ∈ s.log else s.Live

theorem Live.onWSMsg {s : ReadRun} (h : s.Live) (webLogic : ℕ)
    (webLogics : List Bool) :
    (s.onWSMsg webLogic webLogics).Used (webLogics.any id) := by
  induction webLogics generalizing s webLogic with
  | nil => exact h
  | cons closes rest ih =>
      have hcalled : (s.note (.onWSMsg webLogic)).Live := h.note (by simp)
      cases closes with
      | true => exact (log_onWSMsg rest _ _).subset hcalled.closeClient.mem
      | false => exact ih hcalled (webLogic + 1)

theorem Live.wsReport {s : ReadRun} (h : s.Live) (report : WSReport) :
    (s.wsReport report).Used report.closes := by
  have hused : (s.note .usesWSParser).Live := h.note (by simp)
  cases report with
  | controlEnd =>
      rw [ReadRun.wsReport, found_of_alive hused.alive]
      exact hused.note (by simp)
  | msgEnd webLogics =>
      rw [ReadRun.wsReport, found_of_alive hused.alive]
      exact (hused.note (by simp)).onWSMsg 0 webLogics
  | _ => exact hused

theorem Live.wsReports {s : ReadRun} (h : s.Live) (reports : List WSReport) :
    (reports.foldl ReadRun.wsReport s).Used (reports.any (·.closes)) := by
  induction reports generalizing s with
  | nil => exact h
  | cons report rest ih =>
      have hreport := h.wsReport report
      rw [List.any_cons, List.foldl_cons]
      cases hcloses : report.closes with
      | true =>
          rw [hcloses] at hreport
          exact (log_wsReports rest _).subset hreport
      | false =>
          rw [hcloses] at hreport
          exact ih hreport

/-- A close under the frame parser is always followed by a use of its struct. -/
theorem Live.wsExecute {s : ReadRun} (h : s.Live) (reports : List WSReport) :
    if reports.any (·.closes) then ¬(s.wsExecute reports).NothingAfter
    else (s.wsExecute reports).Live := by
  have hreports := (h.note (n := .usesWSParser) (by simp)).wsReports reports
  split_ifs with hcloses
  · rw [Used, if_pos hcloses] at hreports
    exact not_nothingAfter hreports List.prefix_rfl
  · rw [Used, if_neg hcloses] at hreports
    exact hreports.note (by simp)

theorem Live.httpExecute {s : ReadRun} (h : s.Live) (report : HTTPReport) :
    if (LogicServe.http report).closesInWS then
      ¬(s.httpExecute report).NothingAfter
    else (s.httpExecute report).Served report.closes := by
  have hconn : ((s.note .usesHTTPParser).note .usesConn).Live :=
    (h.note (by simp)).note (by simp)
  cases report with
  | partReq => exact h.note (by simp)
  | failed => exact h.note (by simp)
  | noHandler => exact hconn.note (by simp)
  | req closes =>
      have hcalled := (hconn.note (n := .onHTTPReq) (by simp)).handled closes
      have hreset : ((((s.note .usesHTTPParser).note .usesConn).note
          .onHTTPReq).handled closes |>.found (·.note .usesHTTPParser)).Served
            (closes || false) :=
        hcalled.found fun hlive => hlive.note (by simp)
      rw [Bool.or_false] at hreset
      exact hreset
  | upgrade accepted rest =>
      have hchecked := hconn.note (n := .usesWSParser) (by simp)
      cases accepted with
      | true =>
          have hws := (hchecked.note (n := .usesConn) (by simp)).wsExecute rest
          simp only [LogicServe.closesInWS, HTTPReport.closes, ReadRun.httpExecute,
            Bool.not_true, Bool.false_or, if_true]
          cases hcloses : rest.any (·.closes) with
          | true => simpa [hcloses] using hws
          | false => simpa [hcloses, Served] using hws
      | false => exact hchecked.closeClient

theorem Live.protoMsgs {s : ReadRun} (h : s.Live) (refused : Bool)
    (msgs : List Bool) :
    (s.protoMsgs refused msgs).Served (msgs.any id || refused) := by
  induction msgs generalizing s with
  | nil => exact (h.note (by simp)).handled refused
  | cons closes rest ih =>
      have hcalled := ((h.note (n := .usesConn) (by simp)).note (n := .onClientMsg)
        (by simp)).handled closes
      rw [List.any_cons, Bool.or_assoc]
      exact hcalled.found fun hlive => ih (hlive.note (by simp))

theorem Live.serve {s : ReadRun} (h : s.Live) (logic : ℕ) (serve : LogicServe) :
    if serve.closesInWS then ¬(s.serve logic serve).NothingAfter
    else (s.serve logic serve).Served serve.closes := by
  have hcalled : (s.note (.onRecvClientData logic)).Live := h.note (by simp)
  cases serve with
  | logic closes => exact hcalled.handled closes
  | proto msgs refused =>
      rw [ReadRun.serve, found_of_alive hcalled.alive]
      exact hcalled.protoMsgs refused msgs
  | http report =>
      rw [ReadRun.serve, found_of_alive hcalled.alive]
      exact hcalled.httpExecute report
  | ws reports =>
      rw [ReadRun.serve, found_of_alive hcalled.alive]
      have hws := hcalled.wsExecute reports
      cases hcloses : reports.any (·.closes) with
      | true => simpa [LogicServe.closesInWS, hcloses] using hws
      | false =>
          simpa [LogicServe.closesInWS, LogicServe.closes, hcloses, Served] using hws

/-- What a chunk leaves behind is decided by the first module that closes. -/
theorem Live.onRecvClientData {s : ReadRun} (h : s.Live) (logic : ℕ)
    (serves : List LogicServe) :
    (CommonComponent.ClosesLast serves →
        (s.onRecvClientData logic serves).Served (serves.any (·.closes))) ∧
      (¬CommonComponent.ClosesLast serves →
        ¬(s.onRecvClientData logic serves).NothingAfter) := by
  induction serves generalizing s logic with
  | nil => exact ⟨fun _ => h, fun hnot => absurd trivial hnot⟩
  | cons serve rest ih =>
      have hserve := h.serve logic serve
      simp only [CommonComponent.ClosesLast, List.any_cons, ReadRun.onRecvClientData]
      cases hcloses : serve.closes with
      | false =>
          have hws : serve.closesInWS = false := by
            cases serve with
            | http report =>
                cases report with
                | upgrade accepted reports =>
                    cases accepted <;>
                      simp_all [LogicServe.closes, HTTPReport.closes,
                        LogicServe.closesInWS]
                | _ => rfl
            | ws reports => exact hcloses
            | _ => rfl
          rw [if_neg (by simp [hws]), hcloses] at hserve
          exact ih hserve (logic + 1)
      | true =>
          simp only [if_true, Bool.true_or]
          rw [hcloses] at hserve
          constructor
          · rintro ⟨rfl, hws⟩
            rw [if_neg (by simp [hws])] at hserve
            exact hserve
          · intro hnot hnothing
            have hhere := hnothing.of_prefix (log_onRecvClientData rest _ _)
            cases hws : serve.closesInWS with
            | true =>
                rw [hws] at hserve
                exact hserve hhere
            | false =>
                rw [hws] at hserve
                have hgone : (s.serve logic serve).Gone := hserve
                obtain ⟨next, rest', rfl⟩ :=
                  List.exists_cons_of_ne_nil fun hrest => hnot ⟨hrest, hws⟩
                refine not_nothingAfter (n := .onRecvClientData (logic + 1))
                  hgone.mem ?_ hnothing
                exact (log_serve _ _ next).trans (log_onRecvClientData rest' _ _)

/-- The read loop finds a connection that has been closed by a handler gone, and one
that its peer has closed there. -/
theorem Live.readLoop {s : ReadRun} (h : s.Live) (reads : List ReadResult) :
    (ReadsCloseLast reads → (s.readLoop reads).1.Live ∨
        ((s.readLoop reads).1.Gone ∧ (s.readLoop reads).2 = false)) ∧
      (¬ReadsCloseLast reads → ¬(s.readLoop reads).1.NothingAfter) := by
  induction reads generalizing s with
  | nil => exact ⟨fun _ => .inl h, fun hnot => absurd trivial hnot⟩
  | cons result rest ih =>
      have halive : ¬((!s.alive) = true) := by simp [h.alive]
      unfold ReadRun.readLoop
      rw [if_neg halive]
      cases result with
      | data serves =>
          obtain ⟨hlast, hnot⟩ :=
            (h.note (n := .usesConn) (by simp)).onRecvClientData 0 serves
          simp only [ReadsCloseLast]
          constructor
          · rintro ⟨hserves, hrest⟩
            have hserved := hlast hserves
            cases hcloses : serves.any (·.closes) with
            | true =>
                rw [hcloses] at hserved
                have hgone : ((s.note .usesConn).onRecvClientData 0 serves).Gone :=
                  hserved
                right
                cases rest with
                | nil => exact ⟨hgone, rfl⟩
                | cons next rest' =>
                    have hdead : (!((s.note .usesConn).onRecvClientData 0
                        serves).alive) = true := by simp [hgone.alive]
                    simp only [ReadRun.readLoop, if_pos hdead]
                    exact ⟨hgone, trivial⟩
            | false =>
                rw [hcloses] at hserved
                exact (ih hserved).1 (hrest hcloses)
          · intro hbad hnothing
            have hserves : CommonComponent.ClosesLast serves := by
              by_contra hserves
              exact hnot hserves (hnothing.of_prefix (log_readLoop rest _))
            have hserved := hlast hserves
            cases hcloses : serves.any (·.closes) with
            | true => exact hbad ⟨hserves, fun hopen => by simp [hcloses] at hopen⟩
            | false =>
                rw [hcloses] at hserved
                exact (ih hserved).2 (fun hrest => hbad ⟨hserves, fun _ => hrest⟩)
                  hnothing
      | interrupted => exact ih h
      | _ => exact ⟨fun _ => .inl h, fun hnot => absurd trivial hnot⟩

theorem Live.onClientClosed {s : ReadRun} (h : s.Live) : s.onClientClosed.Gone :=
  (h.note (n := .usesConn) (by simp)).closeClient

theorem Live.readCallback {s : ReadRun} (h : s.Live)
    {evClosed evRead stopping calm : Bool} {reads : List ReadResult} :
    (s.ClosesLast (.readCallback evClosed evRead stopping calm reads) →
        (s.readCallback evClosed evRead stopping calm reads).Live ∨
          (s.readCallback evClosed evRead stopping calm reads).Gone) ∧
      (¬s.ClosesLast (.readCallback evClosed evRead stopping calm reads) →
        ¬(s.readCallback evClosed evRead stopping calm reads).NothingAfter) := by
  have hused : (s.note .usesConn).Live := h.note (by simp)
  obtain ⟨hlast, hnot⟩ := hused.readLoop reads
  cases evClosed with
  | true => simp [ReadRun.readCallback, ClosesLast, h.alive, h.onClientClosed]
  | false =>
      cases evRead with
      | false => simp [ReadRun.readCallback, ClosesLast, h.alive, h]
      | true =>
          cases stopping with
          | true => simp [ReadRun.readCallback, ClosesLast, h.alive, h]
          | false =>
              cases calm with
              | false =>
                  simp [ReadRun.readCallback, ClosesLast, h.alive,
                    hused.onClientClosed]
              | true =>
                  have hcallback : s.readCallback false true false true reads =
                      if ((s.note .usesConn).readLoop reads).2 then
                        ((s.note .usesConn).readLoop reads).1.onClientClosed
                      else ((s.note .usesConn).readLoop reads).1 := by
                    simp only [ReadRun.readCallback, h.alive]
                    rcases (s.note .usesConn).readLoop reads with ⟨s', closed⟩
                    cases closed <;> rfl
                  have hguard : s.ClosesLast (.readCallback false true false true
                      reads) ↔ ReadsCloseLast reads := by
                    simp [ClosesLast, h.alive]
                  rw [hguard, hcallback]
                  constructor
                  · intro hreads
                    split_ifs with hclosed
                    · rcases hlast hreads with hlive | ⟨-, hopen⟩
                      · exact .inr hlive.onClientClosed
                      · simp [hclosed] at hopen
                    · exact (hlast hreads).imp_right And.left
                  · intro hreads hnothing
                    refine hnot hreads (hnothing.of_prefix ?_)
                    split_ifs
                    · exact (log_note _ _).trans (log_closeClient _)
                    · exact List.prefix_rfl

/-- **Nothing happens behind a close** in exactly the runs in which no handler
closes the connection from an `OnWSMsg`, or while a further module is to be given
the chunk. -/
theorem run_nothingAfter_iff (actions : List ReadAction) :
    Along step NothingAfter (fun _ _ _ => True) init actions ↔
      Guarded step ClosesLast init actions := by
  have hgood : ∀ s : ReadRun, s.Live ∨ s.Gone → s.NothingAfter := by
    rintro s (hlive | hgone)
    · exact nothingAfter_of_not_mem hlive.log
    · exact hgone.nothingAfter
  have hgone : ∀ (s : ReadRun) (a : ReadAction) (s' : ReadRun), s.Gone →
      step s a = some s' → s' = s ∧ s.ClosesLast a := by
    rintro s (⟨evClosed, evRead, stopping, calm, reads⟩ | _) s' hgone hstep
    · simp only [step, readCallback, hgone.alive, Option.some.injEq] at hstep
      exact ⟨hstep.symm, fun halive => by simp [hgone.alive] at halive⟩
    · simp only [step, closeClient, found, hgone.alive, Option.some.injEq] at hstep
      exact ⟨hstep.symm, trivial⟩
  refine along_iff_guarded hgood ?_ ?_ actions (.inl ⟨rfl, by simp [init]⟩)
  · rintro s a s' (hlive | hdead) hguard hstep
    · refine ⟨?_, trivial⟩
      cases a with
      | readCallback evClosed evRead stopping calm reads =>
          cases hstep
          exact hlive.readCallback.1 hguard
      | closeClient =>
          cases hstep
          exact .inr hlive.closeClient
    · exact ⟨(hgone s a s' hdead hstep).1 ▸ .inr hdead, trivial⟩
  · rintro s a s' (hlive | hdead) hstep - hnothing
    · cases a with
      | readCallback evClosed evRead stopping calm reads =>
          cases hstep
          by_contra hguard
          exact hlive.readCallback.2 hguard hnothing
      | closeClient => trivial
    · exact (hgone s a s' hdead hstep).2

/-- The first of two modules closes; a web logic closes from `OnWSMsg`. -/
theorem not_nothingAfter_two_modules :
    ¬Along step NothingAfter (fun _ _ _ => True) init
        [.readCallback false true false true [.data [.logic true, .logic false]]] ∧
      ¬Along step NothingAfter (fun _ _ _ => True) init
        [.readCallback false true false true
          [.data [.ws [.frameHeader, .frameBody, .msgEnd [true]]]]] := by
  constructor
  · rintro ⟨-, hstep⟩
    have hnothing := (hstep _ rfl).2
      [.usesConn, .usesConn, .onRecvClientData 0] [.onRecvClientData 1] (by decide)
    cases hnothing
  · rintro ⟨-, hstep⟩
    have hnothing := (hstep _ rfl).2
      [.usesConn, .usesConn, .onRecvClientData 0, .usesWSParser, .usesWSParser,
        .usesWSParser, .usesWSParser, .usesConn, .onWSMsg 0] [.usesWSParser]
      (by decide)
    cases hnothing

end ReadRun

end CommonComponent
