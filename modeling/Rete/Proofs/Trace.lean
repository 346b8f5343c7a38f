import Mathlib.Data.List.DropRight
import Mathlib.Data.List.Induction
import Mathlib.Data.List.Infix
import Rete.Trace.Tracer

/-!
# What a tracer has recorded

What a tracer holds can be read off what it was asked for, request by request (`Tracer.Request`):
the event that the last request of a history notes is accepted if the tracer is enabled by then and
the filter keeps it (`Tracer.accepted?`), and its record has the number of events accepted before
and that of the firings seen up to it (`Tracer.record?`).

After any requests the buffer holds the last records since the buffer was last cleared, as many as
it can hold, and every record that was made is buffered, evicted or cleared away
(`Tracer.traces_performAll`).
-/

namespace Rete

/-- The last of the last ones and one more are the last of all. -/
theorem rtake_rtake_concat {α : Type} (all : List α) (last : α) (count : Nat) :
    (all.rtake count ++ [last]).rtake count = (all ++ [last]).rtake count := by
  cases count with
  | zero => simp only [List.rtake_zero]
  | succ count =>
      rw [List.rtake_concat_succ, List.rtake_concat_succ]
      unfold List.rtake
      rw [List.drop_drop, List.length_drop]
      congr 2
      omega

namespace TraceBuffer

variable (buffer : TraceBuffer) (firing nanoseconds : Nat) (event : SessionEvent)

/-- The record that an event gets. -/
def recordOf : TraceRecord := ⟨buffer.nextId, firing, nanoseconds, event⟩

private theorem records_push : (buffer.push firing nanoseconds event).2.records =
    (buffer.records ++ [buffer.recordOf firing nanoseconds event]).rtake buffer.capacity := rfl

/-- A record more is buffered or evicted. -/
theorem evicted_add_size_push :
    (buffer.push firing nanoseconds event).2.evicted +
        (buffer.push firing nanoseconds event).2.size = buffer.evicted + buffer.size + 1 := by
  simp only [push, size, List.length_drop, List.length_append, List.length_singleton]
  omega

end TraceBuffer

namespace Tracer

/-- What a tracer can be asked for. -/
inductive Request where
  | note (nanoseconds : Nat) (event : SessionEvent)
  | enable
  | disable
  | clear
  deriving DecidableEq

/-- A tracer carries out a request. -/
def perform (tracer : Tracer) : Request → Tracer
  | .note nanoseconds event => tracer.record nanoseconds event
  | .enable => tracer.enable
  | .disable => tracer.disable
  | .clear => tracer.clear

/-- A tracer after requests. -/
def performAll (tracer : Tracer) (requests : List Request) : Tracer :=
  requests.foldl perform tracer

private theorem performAll_concat (tracer : Tracer) (requests : List Request) (request : Request) :
    tracer.performAll (requests ++ [request]) = (tracer.performAll requests).perform request :=
  List.foldl_concat ..

/-! ## What histories say -/

/-- Whether the tracer is enabled or disabled. -/
def Request.switch? : Request → Option Bool
  | enable => some true
  | disable => some false
  | note .. | clear => none

variable (config : TracerConfig)

/-- Whether a tracer is enabled after a history: as the last request of it says that says so. -/
def enabledAfter (history : List Request) : Bool :=
  (history.reverse.findSome? Request.switch?).getD config.enabled

/-- The event that the last request of a history notes, with its time, if the tracer is enabled. -/
def seen? (history : List Request) : Option (Nat × SessionEvent) :=
  match history.getLast? with
  | some (.note nanoseconds event) =>
    if enabledAfter config history then some (nanoseconds, event) else none
  | _ => none

/-- Whether an event is the beginning of a firing. -/
def isFiring : SessionEvent → Bool
  | .beforeFire .. => true
  | _ => false

/-- The number of firings that were seen to begin, whether or not the filter keeps them. -/
def firingsSeen (history : List Request) : Nat :=
  history.inits.countP fun upTo => (seen? config upTo).any fun noted => isFiring noted.2

/-- The event that is seen last, if the filter is empty or names its kind. -/
def accepted? (history : List Request) : Option (Nat × SessionEvent) :=
  (seen? config history).filter fun noted =>
    config.filter.isEmpty || config.filter.contains noted.2.kindName

/-- The record of the event that is accepted last: its number is that of the events accepted before,
its firing that of the firings seen up to it. -/
def record? (history : List Request) : Option TraceRecord :=
  (accepted? config history).map fun noted =>
    { id := history.dropLast.inits.countP fun upTo => (accepted? config upTo).isSome
      firing := firingsSeen config history
      nanoseconds := noted.1
      event := noted.2 }

/-- The records of all events that are accepted, in order. -/
def recordsOf (requests : List Request) : List TraceRecord :=
  requests.inits.filterMap (record? config)

/-- The records of the events that are accepted after the last clear. -/
def sinceClear (requests : List Request) : List TraceRecord :=
  (requests.inits.filter fun upTo => !(requests.drop upTo.length).contains .clear).filterMap
    (record? config)

/-- The records that were in the buffer when it was cleared. -/
def cleared (requests : List Request) : List TraceRecord :=
  requests.inits.flatMap fun upTo =>
    match upTo.getLast? with
    | some .clear => ((ofConfig config).performAll upTo.dropLast).buffer.records
    | _ => []

/-! ## One request more -/

variable {config : TracerConfig} {history : List Request} {request : Request}

/-- A history has one more beginning with each request. -/
theorem inits_concat (history : List Request) (request : Request) :
    (history ++ [request]).inits = history.inits ++ [history ++ [request]] := by
  rw [List.inits_append]
  rfl

/-- The last request decides if it is a switch, else the tracer is as it was. -/
theorem enabledAfter_concat (config : TracerConfig) (history : List Request) (request : Request) :
    enabledAfter config (history ++ [request]) =
      request.switch?.getD (enabledAfter config history) := by
  unfold enabledAfter
  rw [List.reverse_append, List.reverse_singleton, List.singleton_append, List.findSome?_cons]
  cases request <;> rfl

private theorem seen?_note (config : TracerConfig) (history : List Request) (nanoseconds : Nat)
    (event : SessionEvent) : seen? config (history ++ [Request.note nanoseconds event]) =
      if enabledAfter config history then some (nanoseconds, event) else none := by
  unfold seen?
  rw [List.getLast?_concat, enabledAfter_concat]
  rfl

/-- Only a note is seen. -/
theorem seen?_of_other (config : TracerConfig) (history : List Request)
    (isOther : ∀ nanoseconds event, request ≠ .note nanoseconds event) :
    seen? config (history ++ [request]) = none := by
  unfold seen?
  rw [List.getLast?_concat]
  cases request with
  | note nanoseconds event => exact absurd rfl (isOther nanoseconds event)
  | enable | disable | clear => rfl

/-- A firing is counted when it is seen to begin. -/
theorem firingsSeen_concat (config : TracerConfig) (history : List Request) (request : Request) :
    firingsSeen config (history ++ [request]) = firingsSeen config history +
      if (seen? config (history ++ [request])).any fun noted => isFiring noted.2 then 1 else 0 := by
  unfold firingsSeen
  rw [inits_concat, List.countP_append, List.countP_singleton]

/-- Each request adds a record at most. -/
theorem recordsOf_concat (config : TracerConfig) (history : List Request) (request : Request) :
    recordsOf config (history ++ [request]) =
      recordsOf config history ++ (record? config (history ++ [request])).toList := by
  unfold recordsOf
  rw [inits_concat, List.filterMap_append, List.filterMap_cons, List.filterMap_nil]
  cases record? config (history ++ [request]) <;> rfl

/-- As many records are made as events are accepted. -/
theorem length_recordsOf (config : TracerConfig) (history : List Request) :
    (recordsOf config history).length =
      history.inits.countP fun upTo => (accepted? config upTo).isSome := by
  unfold recordsOf record?
  rw [List.length_filterMap_eq_countP]
  simp only [Option.isSome_map]

/-- The record of an event that is accepted. -/
theorem record?_of_accepted {noted : Nat × SessionEvent}
    (accepted : accepted? config (history ++ [request]) = some noted) :
    record? config (history ++ [request]) =
      some ⟨(recordsOf config history).length, firingsSeen config (history ++ [request]),
        noted.1, noted.2⟩ := by
  unfold record?
  rw [accepted, List.dropLast_concat, length_recordsOf]
  rfl

/-- What the filter rejects is not recorded. -/
theorem record?_of_not_accepted (rejected : accepted? config history = none) :
    record? config history = none := by
  unfold record?
  rw [rejected]
  rfl

private theorem record?_of_not_seen (unseen : seen? config history = none) :
    record? config history = none := by
  refine record?_of_not_accepted ?_
  unfold accepted?
  rw [unseen]
  rfl

/-- The requests that come after those up to a place, and one more. -/
theorem contains_drop_concat {upTo : List Request} (member : upTo ∈ history.inits)
    (isOther : request ≠ .clear) :
    ((history ++ [request]).drop upTo.length).contains .clear =
      (history.drop upTo.length).contains .clear := by
  have shorter : upTo.length ≤ history.length := ((List.mem_inits upTo history).mp member).length_le
  rw [List.drop_append_of_le_length shorter]
  simp [isOther.symm]

private theorem sinceClear_concat (isOther : request ≠ .clear) :
    sinceClear config (history ++ [request]) =
      sinceClear config history ++ (record? config (history ++ [request])).toList := by
  unfold sinceClear
  have earlier : (history.inits.filter fun upTo =>
      !((history ++ [request]).drop upTo.length).contains .clear) =
    history.inits.filter fun upTo => !(history.drop upTo.length).contains .clear :=
      List.filter_congr fun upTo member => by rw [contains_drop_concat member isOther]
  have last : ([history ++ [request]].filter fun upTo =>
      !((history ++ [request]).drop upTo.length).contains .clear) = [history ++ [request]] := by
    simp
  rw [inits_concat, List.filter_append, earlier, last, List.filterMap_append, List.filterMap_cons,
    List.filterMap_nil]
  cases record? config (history ++ [request]) <;> rfl

private theorem sinceClear_clear (config : TracerConfig) (history : List Request) :
    sinceClear config (history ++ [Request.clear]) = [] := by
  refine List.filterMap_eq_nil_iff.mpr fun upTo chosen => ?_
  obtain ⟨member, noClear⟩ := List.mem_filter.mp chosen
  rw [inits_concat, List.mem_append, List.mem_singleton] at member
  rcases member with earlier | rfl
  · have shorter := ((List.mem_inits upTo history).mp earlier).length_le
    rw [List.drop_append_of_le_length shorter] at noClear
    simp at noClear
  · exact record?_of_not_seen (seen?_of_other config history nofun)

private theorem cleared_concat (isOther : request ≠ .clear) :
    cleared config (history ++ [request]) = cleared config history := by
  unfold cleared
  rw [inits_concat, List.flatMap_append, List.flatMap_singleton, List.getLast?_concat]
  cases request with
  | clear => contradiction
  | note | enable | disable => exact List.append_nil _

private theorem cleared_clear (config : TracerConfig) (history : List Request) :
    cleared config (history ++ [Request.clear]) =
      cleared config history ++ ((ofConfig config).performAll history).buffer.records := by
  unfold cleared
  rw [inits_concat, List.flatMap_append, List.flatMap_singleton, List.getLast?_concat,
    List.dropLast_concat]

/-! ## Runs -/

variable {tracer : Tracer}

private theorem record_of_disabled (isDisabled : tracer.enabled = false) (nanoseconds : Nat)
    (event : SessionEvent) : tracer.record nanoseconds event = tracer := by
  unfold record
  rw [isDisabled]
  rfl

/-- An event is counted if a firing begins with it, and recorded if the filter keeps it. -/
theorem record_of_enabled (isEnabled : tracer.enabled = true) (nanoseconds : Nat)
    (event : SessionEvent) : tracer.record nanoseconds event =
      let counted := { tracer with firings := tracer.firings + if isFiring event then 1 else 0 }
      if tracer.keeps event then
        { counted with buffer := (tracer.buffer.push counted.firings nanoseconds event).2 }
      else counted := by
  unfold record
  rw [isEnabled]
  cases event <;> rfl

/-- What a tracer holds after a history. -/
structure Follows (config : TracerConfig) (history : List Request) (tracer : Tracer) : Prop where
  enabled : tracer.enabled = enabledAfter config history
  filter : tracer.filter = config.filter
  firings : tracer.firings = firingsSeen config history
  capacity : tracer.buffer.capacity = config.capacity
  nextId : tracer.buffer.nextId = (recordsOf config history).length
  records : tracer.buffer.records = (sinceClear config history).rtake config.capacity
  counted : tracer.buffer.evicted + tracer.buffer.size + (cleared config history).length =
    (recordsOf config history).length

private theorem follows_ofConfig (config : TracerConfig) : Follows config [] (ofConfig config) where
  enabled := rfl
  filter := rfl
  firings := rfl
  capacity := rfl
  nextId := rfl
  records := List.rtake_nil _ |>.symm
  counted := rfl

/-- Where no event is accepted, the buffer stays as it was. -/
theorem Follows.of_not_accepted (follows : Follows config history tracer) {after : Tracer}
    (rejected : accepted? config (history ++ [request]) = none) (isOther : request ≠ .clear)
    (enabled : after.enabled = enabledAfter config (history ++ [request]))
    (filter : after.filter = tracer.filter)
    (firings : after.firings = firingsSeen config (history ++ [request]))
    (buffer : after.buffer = tracer.buffer) : Follows config (history ++ [request]) after := by
  have same : recordsOf config (history ++ [request]) = recordsOf config history := by
    rw [recordsOf_concat, record?_of_not_accepted rejected, Option.toList_none, List.append_nil]
  refine ⟨enabled, filter.trans follows.filter, firings, ?_, ?_, ?_, ?_⟩
  · rw [buffer, follows.capacity]
  · rw [buffer, same, follows.nextId]
  · rw [buffer, sinceClear_concat isOther, record?_of_not_accepted rejected, Option.toList_none,
      List.append_nil, follows.records]
  · rw [buffer, same, cleared_concat isOther, follows.counted]

/-- An accepted event gets the next record, for which another one may have to go. -/
theorem Follows.of_accepted (follows : Follows config history tracer) {after : Tracer}
    {noted : Nat × SessionEvent} (accepted : accepted? config (history ++ [request]) = some noted)
    (isOther : request ≠ .clear)
    (enabled : after.enabled = enabledAfter config (history ++ [request]))
    (filter : after.filter = tracer.filter)
    (firings : after.firings = firingsSeen config (history ++ [request]))
    (buffer : after.buffer = (tracer.buffer.push after.firings noted.1 noted.2).2) :
    Follows config (history ++ [request]) after := by
  have isRecord := record?_of_accepted accepted
  rw [← firings, ← follows.nextId] at isRecord
  have longer : (recordsOf config (history ++ [request])).length =
      (recordsOf config history).length + 1 := by
    rw [recordsOf_concat, isRecord, Option.toList_some, List.length_append, List.length_singleton]
  refine ⟨enabled, filter.trans follows.filter, firings, ?_, ?_, ?_, ?_⟩
  · rw [buffer]
    exact follows.capacity
  · rw [buffer, longer, ← follows.nextId]
    rfl
  · rw [buffer, sinceClear_concat isOther, isRecord, TraceBuffer.records_push, follows.records,
      follows.capacity, rtake_rtake_concat]
    rfl
  · rw [buffer, longer, TraceBuffer.evicted_add_size_push, cleared_concat isOther,
      ← follows.counted]
    omega

/-- The beginning of a firing is counted also where the filter does not keep it. -/
theorem Follows.note (follows : Follows config history tracer) (nanoseconds : Nat)
    (event : SessionEvent) :
    Follows config (history ++ [Request.note nanoseconds event])
      (tracer.record nanoseconds event) := by
  have isNote : Request.note nanoseconds event ≠ .clear := nofun
  have enabled : tracer.enabled =
      enabledAfter config (history ++ [Request.note nanoseconds event]) := by
    rw [enabledAfter_concat, follows.enabled]
    rfl
  have seen := seen?_note config history nanoseconds event
  rw [← follows.enabled] at seen
  have firings := firingsSeen_concat config history (.note nanoseconds event)
  rw [seen, ← follows.firings] at firings
  have accepted : accepted? config (history ++ [Request.note nanoseconds event]) =
      if tracer.enabled && tracer.keeps event then some (nanoseconds, event) else none := by
    unfold accepted?
    rw [seen, keeps, follows.filter]
    cases tracer.enabled with
    | false => rfl
    | true => exact Option.filter_some
  cases isEnabled : tracer.enabled with
  | false =>
      rw [isEnabled] at accepted firings
      rw [record_of_disabled isEnabled]
      exact follows.of_not_accepted accepted isNote enabled rfl firings.symm rfl
  | true =>
      rw [isEnabled] at accepted firings
      rw [record_of_enabled isEnabled]
      cases kept : tracer.keeps event with
      | false =>
          rw [kept] at accepted
          exact follows.of_not_accepted accepted isNote enabled rfl firings.symm rfl
      | true =>
          rw [kept] at accepted
          exact follows.of_accepted accepted isNote enabled rfl firings.symm rfl

/-- Clearing lets go of what is buffered; numbers and counts go on. -/
theorem Follows.clear (follows : Follows config history tracer)
    (isRun : tracer = (ofConfig config).performAll history) :
    Follows config (history ++ [Request.clear]) tracer.clear := by
  have unseen : seen? config (history ++ [Request.clear]) = none :=
    seen?_of_other config history nofun
  have same : recordsOf config (history ++ [Request.clear]) = recordsOf config history := by
    rw [recordsOf_concat, record?_of_not_seen unseen, Option.toList_none, List.append_nil]
  refine ⟨?_, follows.filter, ?_, follows.capacity, ?_, ?_, ?_⟩
  · rw [enabledAfter_concat]
    exact follows.enabled
  · rw [firingsSeen_concat, unseen]
    exact follows.firings
  · rw [same]
    exact follows.nextId
  · rw [sinceClear_clear, List.rtake_nil]
    rfl
  · rw [same, cleared_clear, ← isRun, List.length_append, ← follows.counted]
    change tracer.buffer.evicted + 0 + _ = tracer.buffer.evicted + tracer.buffer.records.length + _
    omega

private theorem Follows.switch (follows : Follows config history tracer) {enabled : Bool}
    (isSwitch : request.switch? = some enabled) :
    Follows config (history ++ [request]) { tracer with enabled } := by
  have unseen : seen? config (history ++ [request]) = none :=
    seen?_of_other config history fun _ _ isNote => by rw [isNote] at isSwitch; cases isSwitch
  have rejected : accepted? config (history ++ [request]) = none := by
    unfold accepted?
    rw [unseen]
    rfl
  have isOther : request ≠ .clear := fun isClear => by rw [isClear] at isSwitch; cases isSwitch
  refine follows.of_not_accepted rejected isOther ?_ rfl ?_ rfl
  · rw [enabledAfter_concat, isSwitch]
    rfl
  · rw [firingsSeen_concat, unseen]
    exact follows.firings

private theorem follows_performAll (config : TracerConfig) (requests : List Request) :
    Follows config requests ((ofConfig config).performAll requests) := by
  induction requests using List.reverseRecOn with
  | nil => exact follows_ofConfig config
  | append_singleton history request ih =>
      rw [performAll_concat]
      cases request with
      | note nanoseconds event => exact ih.note nanoseconds event
      | enable | disable => exact ih.switch rfl
      | clear => exact ih.clear rfl

/-- The records of accepted events are numbered in order. -/
theorem ids_recordsOf (config : TracerConfig) (requests : List Request) :
    (recordsOf config requests).map TraceRecord.id =
      List.range (recordsOf config requests).length := by
  induction requests using List.reverseRecOn with
  | nil => rfl
  | append_singleton history request ih =>
      rw [recordsOf_concat, List.map_append, ih]
      cases accepted : accepted? config (history ++ [request]) with
      | none =>
          rw [record?_of_not_accepted accepted, Option.toList_none, List.append_nil]
          exact List.append_nil _
      | some noted =>
          rw [record?_of_accepted accepted, Option.toList_some, List.length_append,
            List.length_singleton, List.range_succ]
          rfl

/-- After any requests, whatever its filter and however small its buffer, a tracer holds the last
records of the events that were accepted since the buffer was last cleared, as many as there is room
for. The records of all accepted events are numbered from zero on, and each of them is buffered, was
evicted or was cleared away. -/
theorem traces_performAll (config : TracerConfig) (requests : List Request) :
    ((ofConfig config).performAll requests).buffer.records =
        (sinceClear config requests).rtake config.capacity ∧
      (recordsOf config requests).map TraceRecord.id =
        List.range (recordsOf config requests).length ∧
      ((ofConfig config).performAll requests).buffer.evicted =
        (recordsOf config requests).length -
          ((ofConfig config).performAll requests).buffer.size - (cleared config requests).length ∧
      ((ofConfig config).performAll requests).buffer.size + (cleared config requests).length ≤
        (recordsOf config requests).length ∧
      ((ofConfig config).performAll requests).buffer.nextId = (recordsOf config requests).length ∧
      ((ofConfig config).performAll requests).firings = firingsSeen config requests ∧
      ((ofConfig config).performAll requests).enabled = enabledAfter config requests := by
  have follows := follows_performAll config requests
  have counted := follows.counted
  refine ⟨follows.records, ids_recordsOf config requests, ?_, ?_, follows.nextId, follows.firings,
    follows.enabled⟩ <;> omega

/-- Without room, a record is evicted as soon as it is made; what the filter keeps out is counted as
a firing and gets no number. -/
example :
    let tracer := (ofConfig { enabled := true, capacity := 0, filter := ["halted"] }).performAll
      [.note 1 (.beforeFire default [] 0), .note 2 .halted, .clear, .note 3 .halted]
    tracer.buffer.records = [] ∧ tracer.buffer.evicted = 2 ∧ tracer.buffer.nextId = 2 ∧
      tracer.firings = 1 := by
  decide +kernel

end Tracer

/-- A session asks its tracer to note what happens. -/
theorem TracedSession.tracer_perform {α : Type} (traced : TracedSession)
    (operation : SessionM α) : (traced.perform operation).2.tracer =
      traced.tracer.map (·.performAll
        ((operation.on traced.session).2.events.map (Tracer.Request.note 0))) := by
  unfold perform Tracer.performAll
  simp only [List.foldl_map]
  rfl

end Rete
