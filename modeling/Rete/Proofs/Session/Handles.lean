import Rete.Proofs.Session.Effects
import Rete.Proofs.Session.Globals

/-!
# Handles are not used again

The next handle is above those of all live facts, and neither operations on facts nor restoring puts
it back while facts can still come in. So a handle that was given out stays below it, or belongs to
a session that was given up (`Session.Spent`), and a handle that is spent and not live is gone for
good (`Session.Gone`). Both are kept by single effects and hence by all that a session does in its
life, in which it may at any moment be replaced by what its snapshot is restored to
(`SessionRun.Lives`).
-/

namespace Rete

/-- The fact that an event is about. -/
def SessionEvent.handle? : SessionEvent → Option Handle
  | factInserted handle _ | factUpdated handle _ | factRetracted handle _ => some handle
  | _ => none

private theorem SessionEvent.handle?_of_not_isFactEvent {event : SessionEvent}
    (other : event.isFactEvent = false) : event.handle? = none := by
  cases event with
  | factInserted | factUpdated | factRetracted => cases other
  | _ => rfl

namespace Session

/-- A handle that the session will not give to a new fact. -/
def Spent (session : Session) (handle : Handle) : Prop :=
  session.disposed = true ∨ handle < session.memory.nextHandle

/-- A handle that will not be live again. -/
structure Gone (session : Session) (handle : Handle) : Prop where
  spent : session.Spent handle
  absent : session.memory.contains handle = false

variable {session after : Session} {handle : Handle} {event? : Option SessionEvent}

/-! ## What a single effect does to handles -/

@[simp] theorem nextHandle_storing (session : Session) (fact : Object) :
    (session.storing fact).memory.nextHandle = session.memory.nextHandle + 1 :=
  Nat.max_self _

namespace Effect

variable {typeName : String} {event : SessionEvent}

private theorem numbered (effect : session.Effect event? after)
    (numbered : session.memory.Numbered) :
    after.memory.Numbered := by
  cases effect with
  | stores fact =>
      have counted : session.memory.allocate.2.Numbered := numbered.of_facts rfl (Nat.le_succ _)
      exact counted.put _ fact
  | replaces fact => exact numbered.put _ fact
  | drops => exact numbered.remove _
  | givesUp => exact .of_empty rfl
  | aside _ keeps => exact numbered.of_facts keeps.facts keeps.nextHandle_le

/-- An effect never gives a spent handle out again. -/
theorem spent (effect : session.Effect event? after) (spent : session.Spent handle) :
    after.Spent handle := by
  have higher (disposed : after.disposed = session.disposed)
      (next : session.memory.nextHandle ≤ after.memory.nextHandle) : after.Spent handle :=
    spent.imp (fun isDisposed => disposed.trans isDisposed) fun below =>
      Nat.lt_of_lt_of_le below next
  cases effect with
  | stores fact => exact higher rfl (by rw [nextHandle_storing]; exact Nat.le_succ _)
  | replaces => exact higher rfl (Nat.le_max_left ..)
  | drops => exact higher rfl (Nat.le_refl _)
  | givesUp => exact .inl rfl
  | aside _ keeps => exact higher keeps.disposed keeps.nextHandle_le

/-- What is live afterwards was live, or an event tells that it came in. -/
theorem live_or_inserted (effect : session.Effect event? after)
    (live : after.memory.contains handle = true) : session.memory.contains handle = true ∨
      ∃ typeName, event? = some (.factInserted handle typeName) := by
  cases effect with
  | stores fact =>
      rw [contains_storing, Bool.or_eq_true, decide_eq_true_eq] at live
      rcases live with rfl | live
      · exact .inr ⟨_, rfl⟩
      · exact .inl live
  | @replaces other fact isLive =>
      rw [contains_replacing, Bool.or_eq_true, decide_eq_true_eq] at live
      rcases live with rfl | live
      · exact .inl isLive
      · exact .inl live
  | drops =>
      rw [contains_dropping, Bool.and_eq_true] at live
      exact .inl live.2
  | givesUp => cases live
  | aside _ keeps =>
      rw [WorkingMemory.contains, keeps.facts] at live
      exact .inl live

/-- A new fact gets the next handle. -/
theorem inserted (effect : session.Effect (some (.factInserted handle typeName)) after) :
    session.disposed = false ∧ handle = session.memory.nextHandle ∧
      after.memory.nextHandle = handle + 1 := by
  cases effect with
  | stores fact alive => exact ⟨alive, rfl, nextHandle_storing session fact⟩
  | aside other => cases other _ rfl

/-- A fact that is dropped was live, and is not any more. -/
theorem retracted (effect : session.Effect (some (.factRetracted handle typeName)) after) :
    session.memory.contains handle = true ∧ after.memory.contains handle = false := by
  cases effect with
  | drops live =>
      refine ⟨SortedMap.contains_eq_true.mpr ⟨_, live⟩, ?_⟩
      rw [contains_dropping, decide_eq_true rfl, Bool.not_true, Bool.false_and]
  | aside other => cases other _ rfl

/-- What is told of a fact is told of one that is live, or that comes in under the next handle. -/
theorem live_or_next (effect : session.Effect (some event) after)
    (names : event.handle? = some handle) : session.memory.contains handle = true ∨
      session.disposed = false ∧ handle = session.memory.nextHandle := by
  cases effect with
  | stores fact alive =>
      cases names
      exact .inr ⟨alive, rfl⟩
  | replaces fact live =>
      cases names
      exact .inl live
  | drops live =>
      cases names
      exact .inl (SortedMap.contains_eq_true.mpr ⟨_, live⟩)
  | givesUp => cases names
  | aside other =>
      rw [SessionEvent.handle?_of_not_isFactEvent (other _ rfl)] at names
      cases names

end Effect

namespace Gone

/-- Nothing is told of a handle that is gone. -/
theorem not_named {event : SessionEvent} (gone : session.Gone handle)
    (effect : session.Effect (some event) after) : event.handle? ≠ some handle := by
  intro names
  rcases effect.live_or_next names with live | ⟨alive, rfl⟩
  · exact Bool.false_ne_true (gone.absent.symm.trans live)
  · rcases gone.spent with disposed | below
    · exact Bool.false_ne_true (alive.symm.trans disposed)
    · exact Nat.lt_irrefl _ below

private theorem effect (gone : session.Gone handle) (effect : session.Effect event? after) :
    after.Gone handle where
  spent := effect.spent gone.spent
  absent := by
    refine Bool.eq_false_iff.mpr fun live => ?_
    rcases effect.live_or_inserted live with live | ⟨_, rfl⟩
    · exact Bool.false_ne_true (gone.absent.symm.trans live)
    · exact gone.not_named effect rfl

end Gone

/-! ## What a chain of effects does to handles -/

namespace Effects

variable {start now last : Session} {events earlier later : List SessionEvent} {typeName : String}

private theorem numbered (effects : start.Effects events last) (numbered : start.memory.Numbered) :
    last.memory.Numbered := by
  induction effects with
  | none => exact numbered
  | cons effect _ ih => exact ih (effect.numbered numbered)

private theorem spent (effects : start.Effects events last) (spent : start.Spent handle) :
    last.Spent handle := by
  induction effects with
  | none => exact spent
  | cons effect _ ih => exact ih (effect.spent spent)

/-- A handle that is gone is never live again, and nothing is told of it any more. -/
theorem gone (effects : start.Effects events last) (gone : start.Gone handle) :
    last.Gone handle ∧ ∀ event ∈ events, event.handle? ≠ some handle := by
  induction effects with
  | none => exact ⟨gone, fun _ none => absurd none List.not_mem_nil⟩
  | @cons session mid last event? events effect _ ih =>
      obtain ⟨atEnd, others⟩ := ih (gone.effect effect)
      refine ⟨atEnd, fun event member => ?_⟩
      rcases List.mem_append.mp member with own | other
      · cases Option.mem_toList.mp own
        exact gone.not_named effect
      · exact others event other

private theorem live_or_inserted (effects : start.Effects events last)
    (live : last.memory.contains handle = true) : start.memory.contains handle = true ∨
      ∃ typeName, .factInserted handle typeName ∈ events := by
  induction effects with
  | none => exact .inl live
  | cons effect _ ih =>
      rcases ih live with live | ⟨typeName, told⟩
      · refine (effect.live_or_inserted live).imp_right fun ⟨typeName, told⟩ => ⟨typeName, ?_⟩
        exact List.mem_append_left _ (Option.mem_toList.mpr told)
      · exact .inr ⟨typeName, List.mem_append_right _ told⟩

end Effects

/-! ## Handles that were given out -/

/-- A handle that was given out before a session started, or since then, as far as was told. -/
def Used (start : Session) (events : List SessionEvent) (handle : Handle) : Prop :=
  handle < start.memory.nextHandle ∨ ∃ typeName, .factInserted handle typeName ∈ events

/-- What is known of the handles of a session at a moment between two events, as it goes on from a
start to an end. -/
structure Accounts (start : Session) (earlier : List SessionEvent) (now : Session)
    (later : List SessionEvent) (last : Session) : Prop where
  before : start.Effects earlier now
  after : now.Effects later last
  /-- Live facts have handles that were given out. -/
  live : ∀ {handle}, now.memory.contains handle = true → start.Used earlier handle
  /-- If a fact comes in, its handle is above all that were given out. -/
  above : ∀ {handle typeName rest}, later = .factInserted handle typeName :: rest →
    ∀ {old}, start.Used earlier old → old < handle
  /-- If a fact has just been dropped, its handle was given out and is not live. -/
  dropped : ∀ {handle typeName past}, earlier = past ++ [.factRetracted handle typeName] →
    start.Used earlier handle ∧ now.memory.contains handle = false
  /-- A handle that was given out and is not live will not be live, and nothing will be told of
  it. -/
  gone : ∀ {handle}, start.Used earlier handle → now.memory.contains handle = false →
    last.memory.contains handle = false ∧ ∀ event ∈ later, event.handle? ≠ some handle

namespace Effects

variable {start now last : Session} {events earlier later : List SessionEvent} {typeName : String}

/-- Handles that were given out are spent. -/
theorem spent_of_used (effects : start.Effects events last) (used : start.Used events handle) :
    last.Spent handle := by
  rcases used with below | ⟨typeName, told⟩
  · exact effects.spent (.inr below)
  · obtain ⟨earlier, later, rfl⟩ := List.append_of_mem told
    obtain ⟨_, after, -, effect, rest⟩ := effects.told
    exact rest.spent (.inr (effect.inserted.2.2 ▸ Nat.lt_succ_self handle))

private theorem used_of_live (effects : start.Effects events last)
    (numbered : start.memory.Numbered)
    (live : last.memory.contains handle = true) : start.Used events handle :=
  (effects.live_or_inserted live).imp_left numbered.below

/-- A new handle is above all that were given out before. -/
theorem lt_of_inserted
    (effects : start.Effects (earlier ++ .factInserted handle typeName :: later) last)
    {old : Handle} (used : start.Used earlier old) : old < handle := by
  obtain ⟨now, _, before, effect, -⟩ := effects.told
  obtain ⟨alive, rfl, -⟩ := effect.inserted
  exact (before.spent_of_used used).resolve_left (Bool.eq_false_iff.mp alive)

/-- A fact that was dropped last was live before. -/
theorem used_of_retracted
    (effects : start.Effects (earlier ++ [.factRetracted handle typeName]) last)
    (numbered : start.memory.Numbered) :
    start.Used earlier handle ∧ last.memory.contains handle = false := by
  obtain ⟨now, after, before, effect, rest⟩ := effects.told
  obtain ⟨live, absent⟩ := effect.retracted
  have used := before.used_of_live numbered live
  have gone : after.Gone handle := ⟨effect.spent (before.spent_of_used used), absent⟩
  exact ⟨used, (rest.gone gone).1.absent⟩

/-- A chain of effects accounts for its handles at every moment on the way. -/
theorem accounts (before : start.Effects earlier now) (after : now.Effects later last)
    (numbered : start.memory.Numbered) : start.Accounts earlier now later last := by
  refine ⟨before, after, before.used_of_live numbered, ?above, ?dropped, ?gone⟩
  case above =>
    rintro handle typeName rest rfl old used
    exact (before.append after).lt_of_inserted used
  case dropped =>
    rintro handle typeName past rfl
    obtain ⟨used, absent⟩ := before.used_of_retracted numbered
    exact ⟨used.imp_right fun ⟨name, told⟩ => ⟨name, List.mem_append_left _ told⟩, absent⟩
  case gone =>
    intro handle used absent
    obtain ⟨atEnd, untold⟩ := after.gone ⟨before.spent_of_used used, absent⟩
    exact ⟨atEnd.absent, untold⟩

end Effects

end Session

/-! ## Restoring -/

namespace Session

variable {session after : Session} {snapshot : Snapshot}

/-- What a snapshot records of the facts of a session. -/
theorem snapshot_eq_ok (taken : session.snapshot = .ok snapshot) : session.disposed = false ∧
    snapshot.facts = session.memory.facts.entries.map
      (fun (handle, object) => ⟨handle, object.typeName, object⟩) ∧
    snapshot.nextHandle = session.memory.nextHandle := by
  cases alive : session.disposed with
  | true =>
      rw [Session.snapshot, if_pos alive] at taken
      cases taken
  | false =>
      rw [Session.snapshot, if_neg (Bool.eq_false_iff.mp alive)] at taken
      obtain ⟨activations, -, taken⟩ := exists_of_bind_eq_ok taken
      obtain ⟨settled, -, taken⟩ := exists_of_bind_eq_ok taken
      cases taken
      exact ⟨rfl, rfl, rfl⟩

/-- A session that is restored from the snapshot of another one has its facts and gives out none of
its handles. -/
theorem keepsFacts_of_restore (taken : session.snapshot = .ok snapshot) {base : KnowledgeBase}
    {config : SessionConfig} (restores : snapshot.restore base config = .ok after) :
    session.KeepsFacts after := by
  obtain ⟨alive, records, next⟩ := snapshot_eq_ok taken
  obtain ⟨facts, -, above, restoredAlive⟩ := Snapshot.memory_of_restore restores
  refine ⟨?_, next ▸ above, restoredAlive.trans alive.symm⟩
  rw [facts, records, List.map_map]
  exact (congrArg SortedMap.ofList (List.map_id _)).trans (SortedMap.ofList_entries _)

end Session

/-! ## The life of a session -/

/-- How a session goes on: requests are served, also those that fail, and at any moment what its
snapshot is restored to may take its place, with whatever knowledge base and settings. -/
inductive SessionRun.Lives (start : SessionRun) : SessionRun → Prop
  | starts : Lives start start
  | asked {before after : SessionRun} {request : Request} {result : Except Error Answer}
      (lives : Lives start before) (run : Ends (SessionM.perform request) before result after) :
      Lives start after
  | restored {before : SessionRun} {session : Session} {snapshot : Snapshot} {base : KnowledgeBase}
      {config : SessionConfig} (lives : Lives start before)
      (taken : before.session.snapshot = .ok snapshot)
      (restores : snapshot.restore base config = .ok session) : Lives start { before with session }

namespace SessionRun.Lives

variable {start run : SessionRun}

/-- All that happens to facts in the life of a session is told. -/
theorem unfolds (lives : start.Lives run) : Unfolds start run := by
  induction lives with
  | starts => exact .refl start
  | asked _ run ih => exact ih.trans ((SessionM.served_unfolds.perform _).goes run)
  | restored _ taken restores ih =>
      exact ih.trans (.quiet rfl (Session.keepsFacts_of_restore taken restores))

end SessionRun.Lives

/-- In every session of a knowledge base, live facts have handles below the next one. -/
theorem KnowledgeBase.Hosts.numbered {base : KnowledgeBase} {session : Session}
    (hosts : base.Hosts session) : session.memory.Numbered := by
  induction hosts with
  | new made =>
      obtain ⟨matching, -, rfl⟩ := Session.follows_of_newSession made
      exact .of_empty rfl
  | restored restores => exact (Snapshot.memory_of_restore restores).2.1
  | asked _ run ih =>
      obtain ⟨_, -, effects⟩ := ((SessionM.served_unfolds.perform _).goes run).exists_events
      exact effects.numbered ih

/-- **Handles are never used again.** A session of a knowledge base goes on to some moment, and from
there to another. At the first moment, live facts have handles that were given out by then; a fact
that comes in next gets a handle above all of those; and a handle that was given out and is not
live, since its fact was retracted or taken back, is not live later, and nothing is told of it on
the way. The same holds of every moment between two events, also in the middle of a consequence.
What an insertion returns is above all handles that were given out before, and whoever asks for it,
an insertion that succeeds tells of its handle first. -/
theorem KnowledgeBase.Hosts.handles_never_reused {base : KnowledgeBase} {start : Session}
    (hosts : base.Hosts start) {run last : SessionRun}
    (lives : SessionRun.Lives { session := start } run) (goesOn : run.Lives last) :
    (∃ later, last.events = run.events ++ later ∧
      start.Accounts run.events run.session later last.session) ∧
    (∀ {earlier later}, last.events = earlier ++ later →
      ∃ now, start.Accounts earlier now later last.session) ∧
    (∀ {fact handle after},
      Ends (SessionM.perform (.insert fact)) run (.ok (.inserted handle)) after →
        (∀ {old}, start.Used run.events old → old < handle) ∧
          after.session.memory.fact? handle = some fact) ∧
    ∀ {before after : SessionRun} {fact handle},
      Ends (SessionM.insert fact) before (.ok handle) after →
        ∃ more, after.events = before.events ++ .factInserted handle fact.typeName :: more := by
  have numbered := hosts.numbered
  have before : start.Effects run.events run.session := by
    obtain ⟨events, told, effects⟩ := lives.unfolds.exists_events
    exact told ▸ effects
  obtain ⟨later, told, after⟩ := goesOn.unfolds.exists_events
  refine ⟨⟨later, told, before.accounts after numbered⟩, fun split => ?within,
    fun {fact handle after} asked => ?returned, fun inserts =>
      (SessionM.unfolds_insert inserts).2.2⟩
  case within =>
    obtain ⟨now, first, second⟩ := Session.Effects.split (split ▸ told ▸ before.append after)
    exact ⟨now, first.accounts second numbered⟩
  case returned =>
    obtain ⟨_, between, inserts, ends⟩ := asked.bind_ok
    obtain ⟨same, rfl⟩ := (ends_pure _).mp ends
    cases same
    obtain ⟨unfolds, live, more, toldFirst⟩ := SessionM.unfolds_insert inserts
    obtain ⟨events, toldAll, effects⟩ := unfolds.exists_events
    have all : start.Effects (run.events ++ .factInserted handle fact.typeName :: more)
        after.session := toldFirst ▸ toldAll ▸ before.append effects
    exact ⟨fun used => all.lt_of_inserted used, live⟩

/-! ## A rule that replaces a sensor -/

namespace Splitting

open Sensors (sensor reading asking ends_asking)

/-- A sensor with a high level is replaced by another one, and by one that no condition can be
tested for. -/
def split : RuleDecl where
  name := "split"
  conditions :=
    [.pattern
      { typeName := "Sensor"
        binding := some "$s"
        constraints := [.test (.binary .lt
          (.binary .div (.literal (.int 100)) (.name "level")) (.literal (.int 10)))] }]
  consequence :=
    [.insert (.construct "Sensor" [.literal (.int 5)]), .retract "$s",
      .insert (.construct "Sensor" [.literal (.int 0)])]

/-- The knowledge base, or the errors of its rules. -/
def built : Except (List Diagnostic) KnowledgeBase :=
  KnowledgeBase.build ⟨SortedMap.insert ∅ "app.Sensor" sensor⟩
    [{ name := "app", imports := [.type "app.Sensor" {}], rules := [split] }]

/-- The knowledge base of the rule. -/
def base : KnowledgeBase := built.toOption.getD default

/-- A new session. -/
def opened : SessionRun := { session := (base.newSession {}).toOption.getD default }

private theorem opened_hosted : base.Hosts opened.session :=
  .new (eq_ok_getD (by decide +kernel : (base.newSession {}).toOption.isSome = true))

/-- A sensor was replaced, up to where the consequence failed. -/
def replaced : SessionRun := asking (.fire none) (asking (.insert (reading 20)) opened)

/-- What the session is restored to. -/
def restored : Except Error Session :=
  (replaced.session.snapshot.toOption.getD default).restore base {}

/-- The session goes on from the snapshot. -/
def revived : SessionRun := { replaced with session := restored.toOption.getD default }

/-- Another sensor comes. -/
def last : SessionRun := asking (.insert (reading 7)) revived

private theorem revived_lives : opened.Lives revived := by
  have once : opened.Lives replaced :=
    (SessionRun.Lives.starts.asked (ends_asking (.insert (reading 20)) opened)).asked
      (ends_asking (.fire none) _)
  exact once.restored (eq_ok_getD (by decide +kernel)) (eq_ok_getD (by decide +kernel))

/-- The third handle was taken back in the consequence, and the restored session gives out the
fourth. -/
theorem split_handles : base.Hosts opened.session ∧ opened.Lives revived ∧ revived.Lives last ∧
    revived.events.filterMap SessionEvent.handle? = [1, 2, 1, 3, 3] ∧
    last.events = revived.events ++ [.factInserted 4 "app.Sensor"] ∧
    last.session.memory.facts.keys = [2, 4] ∧
    (∃ later, last.events = revived.events ++ later ∧
      opened.session.Accounts revived.events revived.session later last.session) ∧
    Ends (SessionM.perform (.insert (reading 7))) revived (.ok (.inserted 4)) last ∧
    ∀ {old}, opened.session.Used revived.events old → old < 4 := by
  have inserts : Ends (SessionM.perform (.insert (reading 7))) revived (.ok (.inserted 4)) last :=
    ends_of_toOption (by decide +kernel)
  have goesOn : revived.Lives last := SessionRun.Lives.starts.asked inserts
  obtain ⟨accounts, -, above, -⟩ := opened_hosted.handles_never_reused revived_lives goesOn
  exact ⟨opened_hosted, revived_lives, goesOn, by decide +kernel, by decide +kernel,
    by decide +kernel, accounts, inserts, (above inserts).1⟩

end Splitting

end Rete
