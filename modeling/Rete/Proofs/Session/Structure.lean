import Rete.Proofs.Knowledge
import Rete.Proofs.Session.Intact

/-!
# The structure of sessions

What the stores of a session have to do with each other (`Session.Structured`): facts that are
held, tokens, blockers and matches belong to live facts; a token comes of one on the left of its
node; a match is a token in front of the terminal node of its rule. This holds after every step of
every request, whether or not a condition failed and whatever host functions compute
(`KnowledgeBase.Made.structured_of_visits`), so what waits in the agenda can fire.
-/

namespace Rete

open Matching

namespace Network

/-- A node of the alpha level is the entry of a type or hangs below it. -/
inductive Under (network : Network) (typeName : String) : NodeId → Prop
  | entry {id : NodeId} (live : network.kind? id = some (.objectType typeName)) :
      Under network typeName id
  | alpha {id parent : NodeId} {test : Expr} {functions : FunctionTable}
      (live : network.kind? id = some (.alpha parent test functions))
      (above : Under network typeName parent) : Under network typeName id

end Network

namespace Session

/-- A store of the session refers to a fact. -/
inductive Mentions (session : Session) (handle : Handle) : Prop
  | held {id : NodeId} (held : (session.matched.factsAt id).contains handle = true)
  | token {id : NodeId} {tuple : Tuple}
      (token : (session.matched.tokensAt id).contains tuple = true) (within : handle ∈ tuple)
  | blocked {id : NodeId} {tuple : Tuple} {facts : SortedSet Handle}
      (blocked : (session.matched.blockedAt id).find? tuple = some facts) (within : handle ∈ tuple)
  | blocker {id : NodeId} {tuple : Tuple} {facts : SortedSet Handle}
      (blocked : (session.matched.blockedAt id).find? tuple = some facts)
      (within : facts.contains handle = true)
  | tracked {found : Match} (known : session.agenda.knows found = true)
      (within : handle ∈ found.tuple)

/-- The stores of a session agree with each other. -/
structure Structured (session : Session) : Prop where
  /-- Only live facts are referred to, and no handle that is still to be given out. -/
  live : ∀ {handle}, session.Mentions handle →
    session.memory.contains handle = true ∧ handle < session.memory.nextHandle
  /-- What a node of the alpha level holds, the node above it holds. -/
  above : ∀ {id parent test functions}, session.network.kind? id =
      some (.alpha parent test functions) → ∀ {handle},
    (session.matched.factsAt id).contains handle = true →
      (session.matched.factsAt parent).contains handle = true
  /-- A node on the alpha level holds facts of the type of its entry. -/
  entry : ∀ {id handle}, (session.matched.factsAt id).contains handle = true →
    ∃ fact, session.memory.fact? handle = some fact ∧ session.network.Under fact.typeName id
  /-- A join lets through tokens on its left, each with a fact on its right. -/
  joined : ∀ {id left right tests functions}, session.network.kind? id =
      some (.join left right tests false functions) → ∀ {tuple},
    (session.matched.tokensAt id).contains tuple = true → ∃ origin fact, tuple = origin ++ [fact] ∧
      (session.matched.leftTokens left).contains origin = true ∧
      (session.matched.factsAt right).contains fact = true
  /-- A negated join lets through tokens on its left. -/
  negated : ∀ {id left right tests functions}, session.network.kind? id =
      some (.join left right tests true functions) → ∀ {tuple},
    (session.matched.tokensAt id).contains tuple = true →
      (session.matched.leftTokens left).contains tuple = true
  /-- An eval lets through tokens on its left. -/
  eval : ∀ {id left test functions}, session.network.kind? id = some (.eval left test functions) →
    ∀ {tuple}, (session.matched.tokensAt id).contains tuple = true →
      (session.matched.leftTokens left).contains tuple = true
  /-- A negated join holds back tokens on its left that it does not let through, each for facts on
  its right. -/
  blocked : ∀ {id tuple facts}, (session.matched.blockedAt id).find? tuple = some facts →
    ∃ left right tests functions,
      session.network.kind? id = some (.join left right tests true functions) ∧
      (session.matched.leftTokens left).contains tuple = true ∧
      (session.matched.tokensAt id).contains tuple = false ∧ facts.isEmpty = false ∧
      ∀ handle, facts.contains handle = true →
        (session.matched.factsAt right).contains handle = true
  /-- Only joins and evals let tokens through, which have a fact for each pattern up to the node
  that is not negated. -/
  length : ∀ {id tuple}, (session.matched.tokensAt id).contains tuple = true →
    session.network.Arity (some id) tuple.length
  /-- A match is a token in front of the terminal node of its rule. -/
  tracked : ∀ {found}, session.agenda.knows found = true → ∃ entry left,
    session.network.rules.find? found.rule = some entry ∧
      session.network.kind? entry.terminal =
        some (.terminal left ⟨found.rule, entry.rule.salience, entry.rule.noLoop⟩) ∧
      (session.matched.leftTokens left).contains found.tuple = true ∧
      found.tuple.length = Condition.positives entry.rule.conditions
  /-- What waits can fire: its rule is there and its facts are live. -/
  pending : ∀ activation ∈ session.agenda.pending,
    (session.network.rule? activation.rule).isSome = true ∧
      ∀ handle ∈ activation.tuple, session.memory.contains handle = true

variable {session after : Session}

/-- A tracked match is one of the rule of a terminal node that is offered its tuple. -/
theorem Intact.offered (intact : session.Intact) {found : Match}
    (known : session.agenda.knows found = true) : ∃ entry left,
    session.network.rules.find? found.rule = some entry ∧
      session.network.kind? entry.terminal =
        some (.terminal left ⟨found.rule, entry.rule.salience, entry.rule.noLoop⟩) ∧
      Network.Realizes session.network entry.rule.functions left entry.rule.conditions ∧
      Offered session.network session.agenda { memory := session.matched } left found.tuple := by
  have coherent := intact.matched.coherent
  obtain ⟨id, otherLeft, terminal, live, isRule⟩ := coherent.tracked known
  obtain ⟨state, isState⟩ := SortedMap.contains_eq_true.mp known
  obtain ⟨entry, isEntry, rfl⟩ := intact.sound.terminal live
  rw [isRule] at isEntry
  obtain ⟨⟨left, entryLive, -, realizes⟩, -⟩ := intact.sound.represents isEntry
  have matched : (Matching.cell session.network session.agenda { memory := session.matched }
      entry.terminal found.tuple).matched = some state :=
    Network.matchState?_eq_some.mpr ⟨left, _, entryLive, isState⟩
  obtain ⟨matchLeft, matchTerminal, matchLive, offered⟩ := coherent.matched matched
  cases entryLive.symm.trans matchLive
  exact ⟨entry, left, isEntry, entryLive, realizes, offered⟩

/-- What waits is tracked. -/
theorem Intact.knows_pending (intact : session.Intact) {activation : Activation}
    (waits : activation ∈ session.agenda.pending) :
    session.agenda.knows activation.toMatch = true :=
  SortedMap.contains_eq_true.mpr ⟨_, intact.consistent.mem_pending.mp waits⟩

/-- The facts of a tuple that is offered are live. -/
theorem Intact.live_of_offered (intact : session.Intact) {left : Option NodeId}
    (fits : session.network.LeftFits left) {tuple : Tuple}
    (offered : Offered session.network session.agenda { memory := session.matched } left tuple)
    {handle : Handle} (within : handle ∈ tuple) : session.memory.contains handle = true := by
  obtain ⟨arity, isArity⟩ := intact.sound.wellFormed.exists_arity intact.sound.accounted fits
  exact intact.live (intact.matched.coherent.holds isArity offered within)

/-- The facts of a match that the agenda tracks are live. -/
theorem Intact.live_of_knows (intact : session.Intact) {found : Match}
    (known : session.agenda.knows found = true) {handle : Handle} (within : handle ∈ found.tuple) :
    session.memory.contains handle = true := by
  obtain ⟨entry, left, -, -, realizes, offered⟩ := intact.offered known
  exact intact.live_of_offered realizes.leftFits offered within

/-- Everything that the stores refer to is live. -/
theorem Intact.live_of_mentions (intact : session.Intact) {handle : Handle}
    (mentions : session.Mentions handle) : session.memory.contains handle = true := by
  have coherent := intact.matched.coherent
  cases mentions with
  | held held => exact intact.live ⟨_, held⟩
  | @token id tuple token within =>
      obtain ⟨kind, live, supports⟩ := coherent.token token
      have fits : session.network.LeftFits (some id) := ⟨kind, live, supports.isBetaLevel⟩
      exact intact.live_of_offered fits token within
  | blocked blocked within =>
      obtain ⟨left, input, tests, functions, live, offered, -⟩ := coherent.blocked blocked
      exact intact.live_of_offered (intact.sound.wellFormed.leftFits live rfl) offered within
  | blocker blocked within =>
      obtain ⟨left, input, tests, functions, live, -, -, stand⟩ := coherent.blocked blocked
      obtain ⟨other, -, held⟩ := stand handle within
      exact intact.live ⟨other, held⟩
  | tracked known within => exact intact.live_of_knows known within

/-- A fact that is held has the type of the entry above. -/
theorem Intact.under (intact : session.Intact) {id : NodeId} {handle : Handle}
    (held : (session.matched.factsAt id).contains handle = true) :
    ∃ fact, session.memory.fact? handle = some fact ∧ session.network.Under fact.typeName id := by
  obtain ⟨kind, live, -⟩ := intact.matched.layered.fitting held
  obtain ⟨level, own⟩ := intact.sound.accounted.exists_level live
  -- The induction goes up to the entry.
  induction own generalizing kind with
  | @top id found live' above =>
      obtain ⟨kind, live, fitting⟩ := intact.matched.layered.fitting held
      cases live'.symm.trans live
      cases found with
      | objectType typeName =>
          obtain ⟨fact, isFact, rfl⟩ := fitting
          exact ⟨fact, isFact, .entry live⟩
      | alpha => cases above
      | join | eval | terminal => exact fitting.elim
  | @under id parent found level live' above upper ih =>
      obtain ⟨kind, live, fitting⟩ := intact.matched.layered.fitting held
      cases live'.symm.trans live
      cases found with
      | objectType => cases above
      | alpha parent test functions =>
          cases above
          obtain ⟨parentKind, parentLive, -⟩ := intact.matched.layered.fitting fitting
          obtain ⟨fact, isFact, under⟩ := ih fitting parentKind parentLive
          exact ⟨fact, isFact, .alpha live under⟩
      | join | eval | terminal => exact fitting.elim

/-- The fact that a join added stands on its right. -/
theorem held_of_onRight {id left right tests negated functions}
    (live : session.network.kind? id = some (.join left right tests negated functions))
    {handle : Handle} (stands : OnRight session.network session.matched id handle) :
    (session.matched.factsAt right).contains handle = true :=
  (reads_onRight session.matched live rfl handle).mp stands

/-- The stores of an intact session agree with each other. -/
theorem Intact.structured (intact : session.Intact) : session.Structured where
  live mentions :=
    have live := intact.live_of_mentions mentions
    ⟨live, intact.below live⟩
  above live handle held := by
    obtain ⟨kind, found, fitting⟩ := intact.matched.layered.fitting held
    cases live.symm.trans found
    exact fitting
  entry := intact.under
  joined live tuple token := by
    obtain ⟨origin, fact, same, offered, stands⟩ := intact.matched.coherent.supports live token
    exact ⟨origin, fact, same, contains_leftTokens.mpr offered, held_of_onRight live stands⟩
  negated live tuple token :=
    contains_leftTokens.mpr (intact.matched.coherent.supports live token)
  eval live tuple token := contains_leftTokens.mpr (intact.matched.coherent.supports live token)
  blocked {id tuple facts} blocked := by
    obtain ⟨left, right, tests, functions, live, offered, nonempty, stand⟩ :=
      intact.matched.coherent.blocked blocked
    exact ⟨left, right, tests, functions, live, contains_leftTokens.mpr offered,
      intact.matched.coherent.exclusive blocked, nonempty,
      fun handle member => held_of_onRight live (stand handle member)⟩
  length {id tuple} token := by
    obtain ⟨kind, live, supports⟩ := intact.matched.coherent.token token
    obtain ⟨arity, isArity⟩ := intact.sound.wellFormed.exists_arity_of_beta intact.sound.accounted
      live supports.isBetaLevel
    exact (intact.matched.coherent.length isArity token).symm ▸ isArity
  tracked known := by
    obtain ⟨entry, left, isEntry, live, realizes, offered⟩ := intact.offered known
    exact ⟨entry, left, isEntry, live, contains_leftTokens.mpr offered,
      intact.matched.coherent.length realizes.arity offered⟩
  pending activation waits := by
    have known := intact.knows_pending waits
    obtain ⟨entry, left, isEntry, -⟩ := intact.offered known
    refine ⟨?_, fun handle within => intact.live_of_knows known within⟩
    rw [Network.rule?, isEntry]
    rfl

/-- Taking the next match takes the first one off the agenda: none is passed over. -/
theorem Intact.ends_takeNext {before after : SessionRun} (intact : before.session.Intact)
    {waiting : Nat} {result : Except Error (Option (Activation × Rule))} :
    Ends (SessionM.takeNext (waiting + 1)) before result after ↔
      (before.session.agenda.pop? = none ∧ result = .ok none ∧ after = before) ∨
        ∃ next agenda rule, before.session.agenda.pop? = some (next, agenda) ∧
          before.session.network.rule? next.rule = some rule ∧ result = .ok (some (next, rule)) ∧
          after = { before with session := { before.session with agenda } } := by
  unfold SessionM.takeNext
  rw [SessionM.ends_session_bind]
  cases popped : before.session.agenda.pop? with
  | none => simp only [ends_pure, reduceCtorEq, false_and, exists_false, or_false, true_and]
  | some taken =>
      obtain ⟨next, agenda⟩ := taken
      have waits := (intact.consistent.queued.mp (Agenda.pop?_eq_some popped).1)
      obtain ⟨isRule, live⟩ := intact.structured.pending next
        (intact.consistent.mem_pending.mpr waits)
      obtain ⟨rule, isRule⟩ := Option.isSome_iff_exists.mp isRule
      have all : next.tuple.all before.session.memory.contains = true := List.all_eq_true.mpr live
      simp only [SessionM.ends_update_bind, SessionM.ends_session_bind, isRule, all, ↓reduceIte,
        ends_pure, reduceCtorEq, false_and, false_or]
      constructor
      · rintro ⟨rfl, rfl⟩
        exact ⟨next, agenda, rule, rfl, isRule, rfl, rfl⟩
      · rintro ⟨_, _, _, same, isOther, rfl, rfl⟩
        cases same
        cases isRule.symm.trans isOther
        exact ⟨rfl, rfl⟩

/-- The match that is taken next is the one that waits first. -/
theorem Intact.takeNext {before after : SessionRun} (intact : before.session.Intact) {waiting : Nat}
    {result : Except Error (Option (Activation × Rule))}
    (run : Ends (SessionM.takeNext (waiting + 1)) before result after) :
    (before.session.agenda.peek? = none ∧ result = .ok none) ∨
      ∃ next rule, before.session.agenda.peek? = some next ∧
        before.session.network.rule? next.rule = some rule ∧ result = .ok (some (next, rule)) := by
  rw [Agenda.peek?_eq_map_pop?]
  rcases intact.ends_takeNext.mp run with ⟨none, rfl, -⟩ |
    ⟨next, agenda, rule, popped, isRule, rfl, -⟩
  · exact .inl ⟨congrArg _ none, rfl⟩
  · exact .inr ⟨next, rule, congrArg _ popped, isRule, rfl⟩

end Session

namespace KnowledgeBase

variable {base : KnowledgeBase} {config : SessionConfig}

/-- The sessions of a knowledge base that steps of requests lead to. Between steps, the host
functions and the values of globals may become others. -/
inductive Visits (base : KnowledgeBase) (config : SessionConfig) : Session → Prop
  | new {session : Session} (made : base.newSession config = .ok session) :
      Visits base config session
  | step {session after : Session} {failures : List Error} (visits : Visits base config session)
      (step : session.Step failures after) : Visits base config after
  | rehosted {session : Session} (visits : Visits base config session) (catalog : Catalog)
      (globals : Globals) :
      Visits base config { session with catalog, memory := { session.memory with globals } }

/-- Every session that is visited is intact. -/
theorem Visits.intact {session : Session} (visits : base.Visits config session)
    (sound : base.network.Sound) : session.Intact := by
  induction visits with
  | new made => exact .new sound made
  | step _ step ih => exact ih.step step
  | rehosted _ catalog globals ih => exact ⟨ih.sound, ih.matched, ih.below, ih.consistent⟩

/-- Requests take steps only, also those that fail. -/
theorem Visits.perform {before after : SessionRun} (visits : base.Visits config before.session)
    {request : Request} {result : Except Error Answer}
    (run : Ends (SessionM.perform request) before result after) :
    base.Visits config after.session :=
  have kept : Session.Kept fun session _ => base.Visits config session := ⟨.step⟩
  (SessionM.Kept.perform kept request).keeps run visits

/-- The stores of every session agree with each other, whatever was asked of it and whether or not
it failed, so that the match that waits first is the one to fire. -/
theorem Made.structured_of_visits (made : base.Made) {before : SessionRun}
    (visits : base.Visits config before.session) :
    before.session.Structured ∧
      (∀ {request result after}, Ends (SessionM.perform request) before result after →
        base.Visits config after.session ∧ after.session.Structured) ∧
      ∀ {waiting result after}, Ends (SessionM.takeNext (waiting + 1)) before result after →
        (before.session.agenda.peek? = none ∧ result = .ok none) ∨
          ∃ next rule, before.session.agenda.peek? = some next ∧
            before.session.network.rule? next.rule = some rule ∧
            result = .ok (some (next, rule)) := by
  have sound := made.proper.network.sound
  refine ⟨(visits.intact sound).structured, fun {request result after} run => ?_,
    fun {waiting result after} run => (visits.intact sound).takeNext run⟩
  have visited := visits.perform run
  exact ⟨visited, (visited.intact sound).structured⟩

end KnowledgeBase

/-! ## A knowledge base for readings of sensors -/

namespace Sensors

/-- A type with a level. -/
def sensor : TypeDef := { name := ⟨["app", "Sensor"]⟩, fields := [.ofType "level" .int] }

/-- A fact for a reading. -/
def reading (level : Int64) : Object := ⟨"app.Sensor", [("level", .int level)]⟩

/-- No sensor; a high level that is not the highest; a level that the reference is divided by. -/
def rules : List RuleDecl :=
  [{ name := "idle", conditions := [.absent { typeName := "Sensor" }] },
    { name := "high"
      conditions :=
        [.pattern
            { typeName := "Sensor"
              binding := some "$s"
              constraints := [.test (.binary .gt (.name "level") (.literal (.int 3)))] },
          .absent
            { typeName := "Sensor"
              constraints :=
                [.test (.binary .lt (.name "level") (.field (.name "$s") "level"))] }] },
    { name := "ratio"
      conditions :=
        [.pattern { typeName := "Sensor", binding := some "$s" },
          .eval (.binary .gt
            (.binary .div (.literal (.int 100)) (.field (.name "$s") "level"))
            (.literal (.int 2)))] }]

/-- The knowledge base, or the errors of its rules. -/
def built : Except (List Diagnostic) KnowledgeBase :=
  KnowledgeBase.build ⟨SortedMap.insert ∅ "app.Sensor" sensor⟩
    [{ name := "app", imports := [.type "app.Sensor" {}], rules }]

/-- The knowledge base of the rules. -/
def base : KnowledgeBase := built.toOption.getD default

/-- The package does build. -/
theorem made : base.Made := .built (eq_ok_getD (by decide +kernel : built.toOption.isSome = true))

/-- A new session. -/
def opened : SessionRun :=
  { session := (base.newSession {}).toOption.getD default }

/-- A session can be opened. -/
theorem opened_eq : base.newSession {} = .ok opened.session :=
  eq_ok_getD (by decide +kernel : (base.newSession {}).toOption.isSome = true)

/-- The new session is visited. -/
theorem opened_visits : base.Visits {} opened.session := .new opened_eq

/-- The session after a request. -/
def asking (request : Request) (before : SessionRun) : SessionRun :=
  ((SessionM.perform request).run.run before).2

/-- A request ends as its run says. -/
theorem ends_asking (request : Request) (before : SessionRun) :
    Ends (SessionM.perform request) before ((SessionM.perform request).run.run before).1
      (asking request before) :=
  ends_run (SessionM.perform request) before

/-- Requests lead from visited sessions to visited ones. -/
theorem asking_visits {base : KnowledgeBase} {request : Request} {before : SessionRun}
    (visits : base.Visits {} before.session) : base.Visits {} (asking request before).session :=
  visits.perform (ends_asking request before)

/-- All rules have fired; then came one reading, and one that the reference cannot be divided by. -/
def failed : SessionRun :=
  asking (.insert (reading 0)) (asking (.insert (reading 5)) (asking (.fire none) opened))

private theorem failed_visits : base.Visits {} failed.session :=
  asking_visits (asking_visits (asking_visits opened_visits))

/-- A session after a fact was taken back, since a condition could not be evaluated. -/
theorem failed_structured : base.Made ∧ base.Visits {} failed.session ∧
    failed.failures.length = 1 ∧
    failed.session.agenda.pending.map (fun next => next.sequence) = [1, 3] ∧
    failed.session.Structured :=
  ⟨made, failed_visits, by decide +kernel, by decide +kernel,
    (KnowledgeBase.Made.structured_of_visits made failed_visits).1⟩

end Sensors

end Rete
