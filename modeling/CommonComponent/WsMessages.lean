import CommonComponent.WsWire

/-!
# From the wire to messages

A client sends messages, each as one frame or as several, and PINGs and PONGs between
them, masked or not.  `WebLogic` hands exactly the messages over, in their order, and
answers each PING with its own bytes, wherever the chunks end.
-/

namespace CommonComponent

/-- The body of a frame to be sent, with or without a mask. -/
structure WsBody where
  hasMask : Bool
  mask : Bytes
  data : Bytes

namespace WsBody

def framed (body : WsBody) (opcode : ℕ) (fin : Bool) : WsSent :=
  ⟨⟨opcode, fin, body.hasMask⟩, body.mask, body.data⟩

structure Ok (body : WsBody) : Prop where
  mask : body.mask.length = 4
  data : body.data.length < 2 ^ 64

theorem Ok.framed {body : WsBody} (h : body.Ok) {opcode : ℕ} (hopcode : opcode < 16)
    (fin : Bool) : (body.framed opcode fin).Ok :=
  ⟨hopcode, h.mask, h.data⟩

end WsBody

/-- What a client sends. -/
inductive WsItem
  | message (text : Bool) (first : WsBody) (more : List WsBody)
  | ping (body : WsBody)
  | pong (body : WsBody)

namespace WsItem

/-- The fragments behind the first; only the last one of them is final. -/
def continuations : List WsBody → List WsSent
  | [] => []
  | body :: rest => body.framed wsOpContinue rest.isEmpty :: continuations rest

def frames : WsItem → List WsSent
  | message text first more =>
      first.framed (if text then wsOpText else wsOpBinary) more.isEmpty ::
        continuations more
  | ping body => [body.framed wsOpPing true]
  | pong body => [body.framed wsOpPong true]

/-- What comes of it on the other side. -/
def answers : WsItem → List WsNote
  | message text first more => [.delivered text (first.data ++ more.flatMap (·.data))]
  | ping body =>
      [.sent ⟨wsOpPong, true, false⟩
        (websocketBuildFrame ⟨wsOpPong, true, false⟩ body.data)]
  | pong _ => []

def Ok : WsItem → Prop
  | message _ first more => first.Ok ∧ ∀ body ∈ more, body.Ok
  | ping body => body.Ok
  | pong body => body.Ok

theorem continuations_ok {more : List WsBody} (h : ∀ body ∈ more, body.Ok) :
    ∀ sent ∈ continuations more, sent.Ok := by
  induction more with
  | nil =>
      intro sent hmem
      cases hmem
  | cons body rest ih =>
      intro sent hmem
      rw [continuations, List.mem_cons] at hmem
      obtain rfl | hmem := hmem
      · exact (h body List.mem_cons_self).framed (by decide) _
      · exact ih (fun body' hbody' => h body' (List.mem_cons_of_mem body hbody')) sent hmem

theorem frames_ok {item : WsItem} (h : item.Ok) : ∀ sent ∈ item.frames, sent.Ok := by
  intro sent hmem
  cases item with
  | message text first more =>
      rw [frames, List.mem_cons] at hmem
      obtain rfl | hmem := hmem
      · apply h.1.framed
        cases text <;> decide
      · exact continuations_ok h.2 sent hmem
  | ping body =>
      obtain rfl := List.mem_singleton.mp hmem
      exact WsBody.Ok.framed h (by decide) true
  | pong body =>
      obtain rfl := List.mem_singleton.mp hmem
      exact WsBody.Ok.framed h (by decide) true

end WsItem

namespace WsParser

open WsSent

variable {p : WsParser}

/-- The callbacks for a frame and for those behind it. -/
theorem handleAll_frames (p : WsParser) (frame : WsFrame) (rest : List WsFrame) :
    (p.handleAll ((frame :: rest).flatMap WsFrame.reports)).1 =
        ((p.handleAll frame.reports).1.handleAll (rest.flatMap WsFrame.reports)).1 ∧
      (p.handleAll ((frame :: rest).flatMap WsFrame.reports)).2.filter (·.isAnswer) =
        (p.handleAll frame.reports).2.filter (·.isAnswer) ++
          ((p.handleAll frame.reports).1.handleAll
            (rest.flatMap WsFrame.reports)).2.filter (·.isAnswer) := by
  rw [List.flatMap_cons, handleAll_append]
  exact ⟨rfl, List.filter_append _ _⟩

/-- The fragments of a message that has begun complete it. -/
theorem Holds.continuations {text : Bool} {data : Bytes}
    (h : p.Holds (some (text, data))) {more : List WsBody} (hne : more ≠ [])
    {frames : List WsFrame}
    (hframes : List.Forall₂ Carried (WsItem.continuations more) frames) :
    (p.handleAll (frames.flatMap WsFrame.reports)).1.Holds none ∧
      (p.handleAll (frames.flatMap WsFrame.reports)).2.filter (·.isAnswer) =
        [.delivered text (data ++ more.flatMap (·.data))] := by
  induction more generalizing p data frames with
  | nil => exact absurd rfl hne
  | cons body rest ih =>
      cases hframes with
      | @cons _ frame _ later hframe hlater =>
          have hopcode : frame.flags = ⟨wsOpContinue, rest.isEmpty, body.hasMask⟩ :=
            hframe.flags
          have hpayload : frame.payload = body.data := hframe.payload
          have hdata : frame.isControl = false := by
            rw [WsFrame.isControl, hopcode]
            rfl
          have hfollow : frame.mayFollow (some (text, data)) := by
            simp [WsFrame.mayFollow, hdata, hopcode]
          obtain ⟨hholds, hanswers⟩ := h.fragment hfollow hdata
          obtain ⟨hfirst, hsecond⟩ := handleAll_frames p frame later
          rw [hfirst, hsecond, hanswers]
          cases rest with
          | nil =>
              cases hlater
              have hpending : frame.pendingAfter (some (text, data)) = none := by
                simp [WsFrame.pendingAfter, hdata, hopcode]
              rw [hpending] at hholds
              refine ⟨hholds, ?_⟩
              simp [WsFrame.due, hdata, hopcode, WsFrame.extend, hpayload, handleAll]
          | cons body' rest =>
              have hpending : frame.pendingAfter (some (text, data)) =
                  some (text, data ++ body.data) := by
                simp [WsFrame.pendingAfter, hdata, hopcode, WsFrame.extend, hpayload]
              rw [hpending] at hholds
              obtain ⟨hrest, hrest'⟩ := ih hholds (List.cons_ne_nil body' rest) hlater
              refine ⟨hrest, ?_⟩
              rw [hrest']
              simp [WsFrame.due, hdata, hopcode]

theorem Holds.message (h : p.Holds none) (text : Bool) {first : WsBody}
    {more : List WsBody} {frames : List WsFrame}
    (hframes : List.Forall₂ Carried (WsItem.message text first more).frames frames) :
    (p.handleAll (frames.flatMap WsFrame.reports)).1.Holds none ∧
      (p.handleAll (frames.flatMap WsFrame.reports)).2.filter (·.isAnswer) =
        (WsItem.message text first more).answers := by
  cases hframes with
  | @cons _ frame _ later hframe hlater =>
      have hopcode : frame.flags =
          ⟨if text then wsOpText else wsOpBinary, more.isEmpty, first.hasMask⟩ :=
        hframe.flags
      have hpayload : frame.payload = first.data := hframe.payload
      have hdata : frame.isControl = false := by
        rw [WsFrame.isControl, hopcode]
        cases text <;> rfl
      have hfollow : frame.mayFollow none := by
        cases text <;> simp [WsFrame.mayFollow, hdata, hopcode]
      have htext : decide (frame.flags.opcode = wsOpText) = text := by
        rw [hopcode]
        cases text <;> rfl
      obtain ⟨hholds, hanswers⟩ := h.fragment hfollow hdata
      obtain ⟨hfirst, hsecond⟩ := handleAll_frames p frame later
      rw [hfirst, hsecond, hanswers]
      cases more with
      | nil =>
          cases hlater
          have hpending : frame.pendingAfter none = none := by
            simp [WsFrame.pendingAfter, hdata, hopcode]
          rw [hpending] at hholds
          refine ⟨hholds, ?_⟩
          simp only [WsFrame.due, hdata, WsFrame.extend, htext, hpayload]
          simp [hopcode, WsItem.answers, handleAll]
      | cons body rest =>
          have hpending : frame.pendingAfter none = some (text, first.data) := by
            simp only [WsFrame.pendingAfter, hdata, WsFrame.extend, htext, hpayload]
            simp [hopcode]
          rw [hpending] at hholds
          obtain ⟨hrest, hrest'⟩ :=
            hholds.continuations (List.cons_ne_nil body rest) hlater
          refine ⟨hrest, ?_⟩
          rw [hrest']
          simp [WsFrame.due, hdata, hopcode, WsItem.answers]

/-- A PING or a PONG where no message is unfinished. -/
theorem Holds.alone (h : p.Holds none) {body : WsBody} {opcode : ℕ}
    (hopcode : opcode = wsOpPing ∨ opcode = wsOpPong) {frames : List WsFrame}
    (hframes : List.Forall₂ Carried [body.framed opcode true] frames) :
    (p.handleAll (frames.flatMap WsFrame.reports)).1.Holds none ∧
      (p.handleAll (frames.flatMap WsFrame.reports)).2.filter (·.isAnswer) =
        if opcode = wsOpPing then (WsItem.ping body).answers else [] := by
  cases hframes with
  | @cons _ frame _ later hframe hlater =>
      cases hlater
      have hflags : frame.flags = ⟨opcode, true, body.hasMask⟩ := hframe.flags
      have hpayload : frame.payload = body.data := hframe.payload
      have hcontrol : frame.isControl = true := by
        rw [WsFrame.isControl, hflags]
        obtain rfl | rfl := hopcode <;> rfl
      have hfollow : frame.mayFollow none := by
        simp [WsFrame.mayFollow, hcontrol, hflags]
      obtain ⟨hholds, hanswers⟩ := h.control hfollow hcontrol
      rw [List.flatMap_singleton]
      refine ⟨hholds, ?_⟩
      rw [hanswers, WsFrame.due, if_pos hcontrol, hflags, hpayload]
      rfl

theorem Holds.item (h : p.Holds none) {item : WsItem} {frames : List WsFrame}
    (hframes : List.Forall₂ Carried item.frames frames) :
    (p.handleAll (frames.flatMap WsFrame.reports)).1.Holds none ∧
      (p.handleAll (frames.flatMap WsFrame.reports)).2.filter (·.isAnswer) =
        item.answers := by
  cases item with
  | message text first more => exact h.message text hframes
  | ping body => exact h.alone (.inl rfl) hframes
  | pong body => exact h.alone (.inr rfl) hframes

theorem Holds.items (h : p.Holds none) {items : List WsItem} {frames : List WsFrame}
    (hframes : List.Forall₂ Carried (items.flatMap WsItem.frames) frames) :
    (p.handleAll (frames.flatMap WsFrame.reports)).2.filter (·.isAnswer) =
      items.flatMap WsItem.answers := by
  induction items generalizing p frames with
  | nil =>
      cases hframes
      rfl
  | cons item rest ih =>
      rw [List.flatMap_cons] at hframes
      obtain ⟨hitem, hrest⟩ : List.Forall₂ Carried item.frames
            (frames.take item.frames.length) ∧
          List.Forall₂ Carried (rest.flatMap WsItem.frames)
            (frames.drop item.frames.length) := by
        have htake := List.forall₂_take item.frames.length hframes
        have hdrop := List.forall₂_drop item.frames.length hframes
        rw [List.take_left] at htake
        rw [List.drop_left] at hdrop
        exact ⟨htake, hdrop⟩
      obtain ⟨hholds, hanswers⟩ := h.item hitem
      rw [← List.take_append_drop item.frames.length frames, List.flatMap_append,
        handleAll_append, Prod.map_snd, List.filter_append, hanswers, ih hholds hrest,
        List.flatMap_cons]

theorem holds_init : init.Holds none := ⟨rfl, rfl, rfl⟩

/-- **From the wire to messages**: of all that a client sends, the web logics get the
messages and the client the PONGs, each once and in order. -/
theorem executeAll_items {items : List WsItem} (hok : ∀ item ∈ items, item.Ok)
    {chunks : List Bytes}
    (hchunks : chunks.flatten = (items.flatMap WsItem.frames).flatMap WsSent.build) :
    (executeAll .init .init chunks).filter (·.isAnswer) =
      items.flatMap WsItem.answers := by
  have hsents : ∀ sent ∈ items.flatMap WsItem.frames, sent.Ok := by
    intro sent hmem
    obtain ⟨item, hitem, hsent⟩ := List.mem_flatMap.mp hmem
    exact WsItem.frames_ok (hok item hitem) sent hsent
  obtain ⟨frames, hreports, hcarried⟩ := reportsOf_build hsents hchunks
  rw [executeAll_eq, hreports]
  exact holds_init.items hcarried

/-- A PING, and a text in two masked fragments. -/
theorem executeAll_items_cut :
    (executeAll .init .init
        [[0x89, 1], [9, 0x01, 0x81, 1, 2], [3, 4, 105, 0x80, 0x81, 1, 2, 3, 4], [107]]).filter
          (·.isAnswer) =
      [.sent ⟨wsOpPong, true, false⟩ [0x8A, 1, 9], .delivered true [104, 106]] := by
  have hitems : ∀ item ∈ [WsItem.ping ⟨false, [0, 0, 0, 0], [9]⟩,
      .message true ⟨true, [1, 2, 3, 4], [104]⟩ [⟨true, [1, 2, 3, 4], [106]⟩]],
      item.Ok := by
    intro item hmem
    simp only [List.mem_cons, List.not_mem_nil, or_false] at hmem
    obtain rfl | rfl := hmem
    · exact ⟨rfl, by decide⟩
    · refine ⟨⟨rfl, by decide⟩, ?_⟩
      intro body hbody
      obtain rfl := List.mem_singleton.mp hbody
      exact ⟨rfl, by decide⟩
  exact executeAll_items hitems (by decide)

end WsParser
end CommonComponent
