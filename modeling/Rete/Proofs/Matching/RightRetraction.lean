import Rete.Proofs.Matching.RightActivation

/-!
# Facts that leave the right

A fact that is taken back is taken out of the joins behind the nodes that held it, one by one: the
tokens that it took part in are withdrawn, and those that only it held back are owed to what is
behind (`rightRetractJoin_relieves`). What is owed is let through afterwards, which settles and
covers it unless a condition fails (`unblock_forM_pays`).
-/

namespace Rete.Matching

variable {network : Network} {base : Agenda} {view : FactView} {right : NodeId → Handle → Prop}
  {state mid after : Matching}

/-! ## Dropping several tokens of a node -/

/-- What dropping tokens of a node does: they are gone with everything that came of them, and
everything else stays. -/
structure RetractedAll (network : Network) (base : Agenda) (state : Matching) (id : NodeId)
    (tokens : List Tuple) (after : Matching) : Prop where
  seeded : after.memory.seeded = state.memory.seeded
  alpha : after.memory.alpha = state.memory.alpha
  own : ∀ {tuple}, (after.cell network base id tuple).token = true ↔
    (state.cell network base id tuple).token = true ∧ tuple ∉ tokens
  behind : ∀ {token other tuple}, token ∈ tokens → Behind network id token other tuple →
    after.cell network base other tuple = {}
  outside : ∀ {other tuple}, (∀ token ∈ tokens, ¬ Within network id token other tuple) →
    after.cell network base other tuple = state.cell network base other tuple

section

variable (sound : network.Sound)

include sound

private theorem retractOutput_foldl {id : NodeId} {kind : NodeKind}
    (live : network.kind? id = some kind)
    (beta : kind.isBetaLevel = true) {arity : Nat} (isArity : network.Arity (some id) arity)
    {tokens : List Tuple} (lengths : ∀ token ∈ tokens, token.length = arity)
    (coherent : Coherent network base right state) :
    let after := tokens.foldl (fun state token => retractOutput network token state id) state
    RetractedAll network base state id tokens after ∧ Coherent network base right after := by
  induction tokens generalizing state with
  | nil =>
      refine ⟨⟨rfl, rfl, fun {tuple} => ?_, nofun, fun _ => rfl⟩, coherent⟩
      exact (and_iff_left List.not_mem_nil).symm
  | cons token rest ih =>
      have length := lengths token List.mem_cons_self
      have retracted := coherent.toGrounded.retractOutput sound live beta isArity
        (Nat.le_of_eq length)
      have between := retracted.coherent sound coherent.toGrounded
        fun {other tuple facts} _ blocked => coherent.exclusive blocked
      obtain ⟨others, last⟩ := ih
        (fun other member => lengths other (List.mem_cons_of_mem _ member)) between
      refine ⟨⟨others.seeded.trans retracted.seeded, others.alpha.trans retracted.alpha,
        fun {tuple} => ?_, fun {stem other tuple} member behind => ?_,
        fun {other tuple} outside => ?_⟩, last⟩
      · rw [List.foldl_cons, others.own, List.mem_cons, not_or, ← and_assoc]
        refine and_congr_left fun _ => ⟨fun kept => ?_, fun before => ?_⟩
        · obtain ⟨outside, before⟩ := retracted.token kept
          exact ⟨before, fun same => outside ⟨.self, same ▸ List.prefix_refl _⟩⟩
        · rw [retracted.outside fun within => before.2 ?_]
          · exact before.1
          · exact (within.2.eq_of_length
              (length.trans (coherent.length isArity before.1).symm)).symm
      · by_cases later : ∃ stem ∈ rest, Behind network id stem other tuple
        · obtain ⟨stem, member, behind⟩ := later
          exact others.behind member behind
        · have isHead : stem = token := (List.mem_cons.mp member).resolve_right
            fun member => later ⟨stem, member, behind⟩
          subst isHead
          refine (others.outside fun stem member within => later ?_).trans
            (retracted.behind behind)
          exact ⟨stem, member, within.1, behind.2.1, within.2⟩
      · exact (others.outside fun stem member => outside stem (List.mem_cons_of_mem _ member)).trans
          (retracted.outside (outside token List.mem_cons_self))

end

/-! ## What is owed -/

/-- The facts on the right, where one is gone from joins. -/
def Less (right : NodeId → Handle → Prop) (joins : NodeId → Prop) (fact : Handle) (id : NodeId)
    (other : Handle) : Prop :=
  right id other ∧ ¬ (joins id ∧ other = fact)

private theorem less_less (right : NodeId → Handle → Prop) (joins others : NodeId → Prop)
    (fact : Handle) :
    Less (Less right joins fact) others fact =
      Less right (fun id => joins id ∨ others id) fact := by
  refine funext fun id => funext fun other => propext ?_
  unfold Less
  rw [and_assoc, ← not_or, or_and_right]

/-- A token that nothing holds back any more, and that was not let through yet. -/
def Owed (network : Network) (base : Agenda) (view : FactView) (right : NodeId → Handle → Prop)
    (state : Matching) (id : NodeId) (tuple : Tuple) : NodeKind → Prop
  | .join _ _ tests true functions => (state.cell network base id tuple).blocked = none ∧
      (state.cell network base id tuple).token = false ∧
      ∀ fact, ¬ (right id fact ∧ view.Joins functions tests tuple fact)
  | .join _ _ _ false _ | .eval .. | .terminal .. | .objectType _ | .alpha .. => False

/-- Every place is settled, or it is owed. -/
structure SettledSave (network : Network) (base : Agenda) (view : FactView)
    (right : NodeId → Handle → Prop) (state : Matching) (owed : List (NodeId × Tuple)) : Prop where
  place : ∀ {id kind left tuple}, network.kind? id = some kind → kind.left? = some left →
    Offered network base state left tuple →
    Settled network base view right state id tuple kind ∨
      ((id, tuple) ∈ owed ∧ Owed network base view right state id tuple kind)

/-- What a node owes of a tuple depends on its cell only. -/
theorem Owed.congr {id : NodeId} {tuple : Tuple} {kind : NodeKind}
    (owed : Owed network base view right state id tuple kind)
    (same : after.cell network base id tuple = state.cell network base id tuple) :
    Owed network base view right after id tuple kind := by
  cases kind with
  | join left input tests negated functions =>
      cases negated with
      | true =>
          obtain ⟨blocked, token, joins⟩ := owed
          exact ⟨same ▸ blocked, same ▸ token, joins⟩
      | false => exact owed.elim
  | eval | terminal | objectType | alpha => exact owed.elim

/-- A place at another node does not read what stands on the right of a join. -/
theorem Settled.less {id : NodeId} {joins : NodeId → Prop} {tuple : Tuple} {kind : NodeKind}
    {fact : Handle} (settled : Settled network base view right state id tuple kind)
    (different : ¬ joins id) :
    Settled network base view (Less right joins fact) state id tuple kind :=
  settled.of_right fun _ => and_iff_left fun here => different here.1

private theorem Owed.less {id : NodeId} {joins : NodeId → Prop} {tuple : Tuple} {kind : NodeKind}
    {fact : Handle} (owed : Owed network base view right state id tuple kind) :
    Owed network base view (Less right joins fact) state id tuple kind := by
  cases kind with
  | join left input tests negated functions =>
      cases negated with
      | true => exact ⟨owed.1, owed.2.1, fun other joins => owed.2.2 other ⟨joins.1.1, joins.2⟩⟩
      | false => exact owed.elim
  | eval | terminal | objectType | alpha => exact owed.elim

/-! ## Taking a fact out of a join -/

/-- A fact is the only one that holds back a token. -/
def frees (fact : Handle) (facts : SortedSet Handle) : Bool :=
  facts.contains fact && (facts.erase fact).isEmpty

/-- What still holds back a token, if anything does. -/
def loosen (fact : Handle) (facts : SortedSet Handle) : Option (SortedSet Handle) :=
  if frees fact facts then none else some (facts.erase fact)

/-- Taking a fact out of a set leaves all others. -/
theorem contains_erase_iff {fact other : Handle} {facts : SortedSet Handle} :
    (facts.erase fact).contains other = true ↔ other ≠ fact ∧ facts.contains other = true := by
  rw [SortedMap.contains_erase, Bool.and_eq_true, Bool.not_eq_true', decide_eq_false_iff_not]

/-- A fact frees what it alone holds back. -/
theorem frees_iff {fact : Handle} {facts : SortedSet Handle} : frees fact facts = true ↔
    ∀ other, facts.contains other = true ↔ other = fact := by
  constructor
  · intro free other
    obtain ⟨held, empty⟩ := Bool.and_eq_true_iff.mp free
    refine ⟨fun here => ?_, fun same => same ▸ held⟩
    by_contra different
    rw [SortedMap.isEmpty_eq_false_iff.mpr
      ⟨other, contains_erase_iff.mpr ⟨different, here⟩⟩] at empty
    cases empty
  · intro only
    refine Bool.and_eq_true_iff.mpr ⟨(only fact).mpr rfl, ?_⟩
    by_contra nonempty
    obtain ⟨other, here⟩ := SortedMap.isEmpty_eq_false_iff.mp (Bool.eq_false_iff.mpr nonempty)
    obtain ⟨different, held⟩ := contains_erase_iff.mp here
    exact different ((only other).mp held)

/-- What is held back by a fact and others stays held back by the others. -/
theorem loosen_eq_some {fact : Handle} {facts rest : SortedSet Handle}
    (nonempty : facts.isEmpty = false) (left : loosen fact facts = some rest) :
    rest.isEmpty = false ∧
      ∀ other, rest.contains other = true ↔ other ≠ fact ∧ facts.contains other = true := by
  unfold loosen at left
  cases free : frees fact facts with
  | true =>
      rw [free, if_pos rfl] at left
      cases left
  | false =>
      rw [free, if_neg Bool.false_ne_true] at left
      cases left
      refine ⟨Bool.eq_false_iff.mpr fun empty => ?_, fun other => contains_erase_iff⟩
      -- If nothing were left, the fact would have been the only one.
      have only : ∀ other, facts.contains other = true → other = fact := by
        intro other held
        by_contra different
        rw [SortedMap.isEmpty_eq_false_iff.mpr ⟨other, contains_erase_iff.mpr ⟨different, held⟩⟩]
          at empty
        cases empty
      obtain ⟨first, held⟩ := SortedMap.isEmpty_eq_false_iff.mp nonempty
      refine Bool.false_ne_true (free.symm.trans (frees_iff.mpr fun other => ?_))
      exact ⟨only other, fun same => (same.trans (only first held).symm) ▸ held⟩

private theorem loosen_eq_none {fact : Handle} {facts : SortedSet Handle}
    (free : loosen fact facts = none) : frees fact facts = true := by
  unfold loosen at free
  by_contra kept
  rw [if_neg kept] at free
  cases free

private theorem not_contains_of_loosen {fact : Handle} {facts rest : SortedSet Handle}
    (left : loosen fact facts = some rest) : rest.contains fact = false := by
  unfold loosen at left
  split at left
  · cases left
  · cases left
    exact Bool.eq_false_iff.mpr fun held => (contains_erase_iff.mp held).1 rfl

/-- A fact that does not hold back a token makes no difference for it. -/
theorem loosen_of_absent {fact : Handle} {facts : SortedSet Handle}
    (absent : facts.contains fact = false) : loosen fact facts = some facts := by
  have kept : frees fact facts = false := by
    rw [frees, absent]
    rfl
  rw [loosen, kept, if_neg Bool.false_ne_true,
    SortedMap.erase_of_absent (SortedMap.contains_eq_false.mp absent)]

/-- Nothing else is kept than before, save that a fact may have been taken out of those that hold
the tuple back. -/
structure Eased (fact : Handle) (before after : Cell) : Prop where
  token : after.token = before.token
  matched : after.matched = before.matched
  blocked : after.blocked = before.blocked ∨ after.blocked = before.blocked.bind (loosen fact)

namespace Eased

variable {fact : Handle} {one other last : Cell}

private theorem bind_loosen (held : Option (SortedSet Handle)) (fact : Handle) :
    (held.bind (loosen fact)).bind (loosen fact) = held.bind (loosen fact) := by
  cases held with
  | none => rfl
  | some facts =>
      change (loosen fact facts).bind (loosen fact) = loosen fact facts
      cases rest : loosen fact facts with
      | none => rfl
      | some others => exact loosen_of_absent (not_contains_of_loosen rest)

/-- What has not changed. -/
theorem refl (fact : Handle) (cell : Cell) : Eased fact cell cell := ⟨rfl, rfl, .inl rfl⟩

/-- A fact that is taken out once more. -/
theorem trans (first : Eased fact one other) (second : Eased fact other last) :
    Eased fact one last := by
  refine ⟨second.token.trans first.token, second.matched.trans first.matched, ?_⟩
  rcases second.blocked with same | eased
  · exact first.blocked.imp same.trans same.trans
  · rcases first.blocked with same | before
    · exact .inr (same ▸ eased)
    · exact .inr (by rw [eased, before, bind_loosen])

end Eased

/-- A node is a negated join. -/
def Negates (network : Network) (id : NodeId) : Prop :=
  ∃ left input tests functions, network.kind? id = some (.join left input tests true functions)

/-- A fact was taken out of joins. -/
structure Relieves (network : Network) (base : Agenda) (view : FactView)
    (right : NodeId → Handle → Prop) (joins : NodeId → Prop) (fact : Handle) (state : Matching)
    (freed : List (NodeId × Tuple)) (after : Matching) : Prop where
  seeded : after.memory.seeded = state.memory.seeded
  alpha : after.memory.alpha = state.memory.alpha
  coherent : Coherent network base (Less right joins fact) after
  negates : ∀ place ∈ freed, Negates network place.1
  heldOnly : ∀ place ∈ freed, (state.cell network base place.1 place.2).HeldOnlyBy fact
  /-- Of tuples without the fact nothing changes but that the fact holds back none. -/
  eased : ∀ {id tuple}, fact ∉ tuple →
    Eased fact (state.cell network base id tuple) (after.cell network base id tuple)
  /-- Only the fact was taken out of what holds back a tuple. -/
  blocked : ∀ {id tuple rest}, (after.cell network base id tuple).blocked = some rest →
    ∃ facts, (state.cell network base id tuple).blocked = some facts ∧
      (∀ other, rest.contains other = true → facts.contains other = true) ∧
      ∀ other, facts.contains other = true → other = fact ∨ rest.contains other = true
  settled : ∀ {owed}, SettledSave network base view right state owed →
    SettledSave network base view (Less right joins fact) after (owed ++ freed)
  covers : ∀ {excused}, Covers network base state excused →
    Covers network base after fun id tuple => excused id tuple ∨ (id, tuple) ∈ freed

private theorem Relieves.refl {fact : Handle} (coherent : Coherent network base right state) :
    Relieves network base view right (fun _ => False) fact state [] state := by
  have same : Less right (fun _ => False) fact = right := by
    refine funext fun id => funext fun other => propext ?_
    exact and_iff_left fun none => none.1
  refine ⟨rfl, rfl, ?_, nofun, nofun, fun _ => .refl fact _,
    fun blocked => ⟨_, blocked, fun _ held => held, fun _ held => .inr held⟩,
    fun {owed} settled => ?_, fun covers => covers.mono .inl⟩
  · rwa [same]
  · rwa [same, List.append_nil]

private theorem Relieves.trans {joins others : NodeId → Prop} {fact : Handle}
    {freed more : List (NodeId × Tuple)}
    (first : Relieves network base view right joins fact state freed mid)
    (second : Relieves network base view (Less right joins fact) others fact mid more after) :
    Relieves network base view right (fun id => joins id ∨ others id) fact state (freed ++ more)
      after := by
  refine ⟨second.seeded.trans first.seeded, second.alpha.trans first.alpha, ?_,
    fun place member => ?_, fun place member => ?_,
    fun without => (first.eased without).trans (second.eased without),
    fun {id tuple rest} blocked => ?_, fun {owed} settled => ?_, fun {excused} covers => ?_⟩
  · rw [← less_less]
    exact second.coherent
  · exact (List.mem_append.mp member).elim (first.negates place) (second.negates place)
  · refine (List.mem_append.mp member).elim (first.heldOnly place) fun later => ?_
    obtain ⟨rest, blocked, only⟩ := second.heldOnly place later
    obtain ⟨facts, before, less, more⟩ := first.blocked blocked
    refine ⟨facts, before, fun other => ⟨fun held => ?_, fun same => ?_⟩⟩
    · exact (more other held).elim (fun same => same) (only other).mp
    · exact less other ((only other).mpr same)
  · obtain ⟨between, held, less, more⟩ := second.blocked blocked
    obtain ⟨facts, before, lessBefore, moreBefore⟩ := first.blocked held
    exact ⟨facts, before, fun other here => lessBefore other (less other here), fun other here =>
      (moreBefore other here).elim .inl (more other)⟩
  · rw [← less_less, ← List.append_assoc]
    exact second.settled (first.settled settled)
  · refine (second.covers (first.covers covers)).mono fun {id tuple} here => ?_
    rw [List.mem_append, ← or_assoc]
    exact here

/-- A fact that is taken out of one part of the joins after another. -/
theorem Relieves.mapM {ι : Type} {step : ι → MatchM (List (NodeId × Tuple))} {fact : Handle}
    {parts : ι → NodeId → Prop} {items : List ι} (coherent : Coherent network base right state)
    {result : Except Error (List (List (NodeId × Tuple)))}
    (run : Ends (items.mapM step) state result after)
    (each : ∀ item ∈ items, ∀ {right before result after}, Coherent network base right before →
      Ends (step item) before result after →
        ∃ freed, result = .ok freed ∧
          Relieves network base view right (parts item) fact before freed after) :
    ∃ freed, result = .ok freed ∧ Relieves network base view right
      (fun id => ∃ item ∈ items, parts item id) fact state freed.flatten after := by
  induction items generalizing right state result with
  | nil =>
      rw [List.mapM_nil] at run
      obtain ⟨rfl, rfl⟩ := (ends_pure _).mp run
      have nowhere : (fun id => ∃ item ∈ ([] : List ι), parts item id) = fun _ => False :=
        funext fun id => eq_false fun ⟨_, member, _⟩ => List.not_mem_nil member
      exact ⟨[], rfl, nowhere ▸ .refl coherent⟩
  | cons item rest ih =>
      have later : ∀ other ∈ rest, other ∈ item :: rest := fun _ => List.mem_cons_of_mem _
      rw [List.mapM_cons] at run
      rcases ends_bind.mp run with ⟨freed, between, first, others⟩ | ⟨error, first, -⟩
      · obtain ⟨_, same, relieves⟩ := each item List.mem_cons_self coherent first
        cases same
        rcases ends_bind.mp others with ⟨more, last, remaining, ending⟩ | ⟨error, failed, -⟩
        · obtain ⟨rfl, rfl⟩ := (ends_pure _).mp ending
          obtain ⟨_, same, onward⟩ :=
            ih relieves.coherent remaining fun other member => each other (later other member)
          cases same
          have joined : (fun id => ∃ other ∈ item :: rest, parts other id) =
              fun id => parts item id ∨ ∃ other ∈ rest, parts other id :=
            funext fun id => propext (List.exists_mem_cons_iff ..)
          exact ⟨_, rfl, joined ▸ relieves.trans onward⟩
        · obtain ⟨_, same, -⟩ :=
            ih relieves.coherent failed fun other member => each other (later other member)
          cases same
      · obtain ⟨_, same, -⟩ := each item List.mem_cons_self coherent first
        cases same

section

variable (sound : network.Sound)

include sound

/-- Where tokens of a node were dropped, each place that is offered is at the node, or was offered
before and nothing that is kept of it has changed. -/
theorem RetractedAll.place {id : NodeId} {tokens : List Tuple}
    (retracted : RetractedAll network base state id tokens after)
    (coherent : Coherent network base right after) {arity : Nat}
    (isArity : network.Arity (some id) arity) (lengths : ∀ token ∈ tokens, token.length = arity)
    {other : NodeId} {kind : NodeKind} {left : Option NodeId} {tuple : Tuple}
    (live : network.kind? other = some kind) (isLeft : kind.left? = some left)
    (offered : Offered network base after left tuple) :
    Offered network base state left tuple ∧
      (other ≠ id → SameAt network base state after other tuple) := by
  have notBehind : ∀ {token}, token ∈ tokens → ¬ Behind network id token other tuple := by
    intro token member behind
    refine not_offered_behind coherent.toGrounded isArity (lengths token member) ?_
      (retracted.behind member) live isLeft behind offered
    exact Bool.eq_false_iff.mpr fun kept => (retracted.own.mp kept).2 member
  refine ⟨?_, fun different longer extended => retracted.outside fun token member => ?_⟩
  · cases left with
    | none => exact ⟨retracted.seeded.symm.trans offered.1, offered.2⟩
    | some via =>
        refine (congrArg Cell.token (retracted.outside fun token member within => ?_)).symm.trans
          offered
        refine notBehind member ⟨within.1.next live isLeft, ?_, within.2⟩
        rintro rfl
        exact Network.Feeds.not_left sound.accounted live isLeft within.1
  · by_cases starts : token <+: tuple
    · exact fun within => notBehind member ⟨within.1, different, starts⟩
    · exact coherent.toGrounded.not_within sound isArity (Nat.le_of_eq (lengths token member)) live
        isLeft offered different starts extended

omit sound in
/-- Without the tokens that a fact was added to, a join has nothing that came of the fact. -/
theorem RetractedAll.coherent_less {id input : NodeId} {left : Option NodeId} {tests : List Expr}
    {functions : FunctionTable} {fact : Handle} {doomed : List Tuple}
    (retracted : RetractedAll network base state id doomed after)
    (live : network.kind? id = some (.join left input tests false functions))
    (isDoomed : ∀ {token}, token ∈ doomed ↔
      (state.cell network base id token).token = true ∧ token.getLast? = some fact)
    (coherent : Coherent network base right after) :
    Coherent network base (Less right (· = id) fact) after := by
  refine ⟨⟨fun {other tuple} token => ?_, fun {other tuple facts} blocked => ?_,
    coherent.matched, coherent.tracked⟩, coherent.exclusive⟩
  · obtain ⟨kind, otherLive, supports⟩ := coherent.token token
    refine ⟨kind, otherLive, ?_⟩
    cases kind with
    | join otherLeft otherInput otherTests negated otherFunctions =>
        cases negated with
        | true => exact supports
        | false =>
            obtain ⟨origin, last, rfl, offered, stands⟩ := supports
            refine ⟨origin, last, rfl, offered, stands, ?_⟩
            rintro ⟨rfl, rfl⟩
            obtain ⟨before, kept⟩ := retracted.own.mp token
            exact kept (isDoomed.mpr ⟨before, List.getLast?_concat⟩)
    | eval => exact supports
    | objectType | alpha | terminal => exact supports.elim
  · obtain ⟨otherLeft, otherInput, otherTests, otherFunctions, otherLive, offered, nonempty,
      stand⟩ := coherent.blocked blocked
    refine ⟨otherLeft, otherInput, otherTests, otherFunctions, otherLive, offered, nonempty,
      fun last member => ⟨stand last member, ?_⟩⟩
    rintro ⟨rfl, -⟩
    cases live.symm.trans otherLive

omit sound in
/-- Without the tokens that a fact was added to, a place of a join is settled without the fact. -/
theorem RetractedAll.settled_less {id input : NodeId} {left : Option NodeId} {tests : List Expr}
    {functions : FunctionTable} {fact : Handle} {doomed : List Tuple}
    (retracted : RetractedAll network base state id doomed after)
    (isDoomed : ∀ {token}, token ∈ doomed ↔
      (state.cell network base id token).token = true ∧ token.getLast? = some fact) {tuple : Tuple}
    (settled : Settled network base view right state id tuple
      (.join left input tests false functions)) :
    Settled network base view (Less right (· = id) fact) after id tuple
      (.join left input tests false functions) := by
  intro last
  rw [retracted.own, isDoomed, List.getLast?_concat, Option.some.injEq, not_and, settled last]
  constructor
  · rintro ⟨⟨stands, joins⟩, kept⟩
    exact ⟨⟨stands, fun gone => kept ⟨stands, joins⟩ gone.2⟩, joins⟩
  · rintro ⟨⟨stands, notFact⟩, joins⟩
    exact ⟨⟨stands, joins⟩, fun _ isFact => notFact ⟨rfl, isFact⟩⟩

/-- A fact is taken out of a join that is not negated with the tokens that it was added to. -/
theorem retractOutput_relieves {id input : NodeId} {left : Option NodeId} {tests : List Expr}
    {functions : FunctionTable}
    (live : network.kind? id = some (.join left input tests false functions))
    (coherent : Coherent network base right state) (fact : Handle) :
    let doomed := (state.memory.tokensAt id).keys.filter fun token => token.getLast? == some fact
    Relieves network base view right (· = id) fact state []
      (doomed.foldl (fun state token => retractOutput network token state id) state) := by
  intro doomed
  obtain ⟨arity, isArity⟩ := sound.wellFormed.exists_arity_of_beta sound.accounted live rfl
  have isDoomed : ∀ {token}, token ∈ doomed ↔
      (state.cell network base id token).token = true ∧ token.getLast? = some fact := by
    intro token
    rw [List.mem_filter, SortedMap.mem_keys, beq_iff_eq]
    rfl
  have lengths : ∀ token ∈ doomed, token.length = arity := fun token member =>
    coherent.length isArity (isDoomed.mp member).1
  obtain ⟨retracted, between⟩ := retractOutput_foldl sound live rfl isArity lengths coherent
  set after := doomed.foldl (fun state token => retractOutput network token state id) state
  refine ⟨retracted.seeded, retracted.alpha, retracted.coherent_less live isDoomed between,
    nofun, nofun, fun {other tuple} without => ?_,
    fun {other tuple rest} blocked => ⟨rest, ?_, fun _ held => held, fun _ held => .inr held⟩,
    fun {owed} settledSave =>
      ⟨fun {other kind otherLeft tuple} otherLive isLeft offered => ?_⟩,
    fun {excused} covers =>
      ⟨fun {other otherLeft otherInput otherTests otherFunctions tuple} otherLive offered => ?_⟩⟩
  · rw [retracted.outside fun token member within => without ?_]
    · exact .refl fact _
    · exact within.2.subset (List.mem_of_getLast? (isDoomed.mp member).2)
  · have different : other ≠ id := by
      rintro rfl
      cases (between.unblocked live tuple).symm.trans blocked
    rw [← retracted.outside fun token member within => ?_]
    · exact blocked
    · rw [retracted.behind member ⟨within.1, different, within.2⟩] at blocked
      cases blocked
  · obtain ⟨before, same⟩ := retracted.place sound between isArity lengths otherLive isLeft offered
    rw [List.append_nil]
    by_cases here : other = id
    · subst here
      cases live.symm.trans otherLive
      have settled := (settledSave.place live isLeft before).resolve_right fun owed => owed.2
      exact .inl (retracted.settled_less isDoomed settled)
    · refine (settledSave.place otherLive isLeft before).imp (fun settled => ?_) fun owed => ?_
      · exact (settled.congr (same here)).less here
      · exact ⟨owed.1, (owed.2.congr (same here tuple (List.prefix_refl _))).less⟩
  · obtain ⟨before, same⟩ := retracted.place sound between isArity lengths otherLive rfl offered
    have different : other ≠ id := by
      rintro rfl
      cases live.symm.trans otherLive
    rw [same different tuple (List.prefix_refl _)]
    exact (covers.place otherLive before).imp_right .inl

end

/-! A fact is taken out of a negated join with what it holds back. -/

/-- A fact was taken out of those that hold back tokens of a node. -/
structure Loosened (network : Network) (base : Agenda) (state : Matching) (id : NodeId)
    (fact : Handle) (after : Matching) : Prop where
  seeded : after.memory.seeded = state.memory.seeded
  alpha : after.memory.alpha = state.memory.alpha
  agenda : after.agenda base = state.agenda base
  cells : ∀ other tuple, after.cell network base other tuple =
    if other = id then
      { state.cell network base other tuple with
        blocked := (state.cell network base id tuple).blocked.bind (loosen fact) }
    else state.cell network base other tuple

namespace Loosened

variable {id input : NodeId} {left : Option NodeId} {tests : List Expr} {functions : FunctionTable}
  {fact : Handle} (loosened : Loosened network base state id fact after)

include loosened

/-- Loosening does not touch tokens. -/
theorem token (other : NodeId) (tuple : Tuple) : (after.cell network base other tuple).token =
    (state.cell network base other tuple).token := by
  rw [loosened.cells]
  split <;> rfl

private theorem elsewhere {other : NodeId} (different : other ≠ id) (tuple : Tuple) :
    after.cell network base other tuple = state.cell network base other tuple := by
  rw [loosened.cells, if_neg different]

/-- A tuple is loosened from the fact, and free if nothing else holds it back. -/
theorem blocked {tuple : Tuple} {held : Option (SortedSet Handle)}
    (before : (state.cell network base id tuple).blocked = held) :
    (after.cell network base id tuple).blocked = held.bind (loosen fact) := by
  rw [loosened.cells, if_pos rfl, before]

private theorem offered {otherLeft : Option NodeId} {tuple : Tuple}
    (offered : Offered network base after otherLeft tuple) :
    Offered network base state otherLeft tuple :=
  offered.transfer loosened.seeded.symm fun other tuple => (loosened.token other tuple).symm

private theorem keeps (live : network.kind? id = some (.join left input tests true functions))
    (coherent : Coherent network base right state) :
    Coherent network base (Less right (· = id) fact) after := by
  refine ⟨coherent.toGrounded.reblocked live loosened.seeded loosened.agenda loosened.cells
    (fun different stands => ⟨stands, fun same => different same.1⟩) fun {tuple rest} stored => ?_,
    fun {other tuple facts} blocked => ?_⟩
  · obtain ⟨facts, before, isRest⟩ := Option.bind_eq_some_iff.mp stored
    obtain ⟨_, _, _, _, found, offered, nonempty, stand⟩ := coherent.blocked before
    cases live.symm.trans found
    obtain ⟨restNonempty, members⟩ := loosen_eq_some nonempty isRest
    refine ⟨offered, restNonempty, fun other member => ?_⟩
    obtain ⟨different, held⟩ := (members other).mp member
    exact ⟨stand other held, fun same => different same.2⟩
  · rw [loosened.token]
    by_cases here : other = id
    · subst here
      obtain ⟨facts, before, -⟩ :=
        Option.bind_eq_some_iff.mp ((loosened.blocked rfl).symm.trans blocked)
      exact coherent.exclusive before
    · rw [loosened.elsewhere here] at blocked
      exact coherent.exclusive blocked

/-- What is settled at the node stays so, or the fact was all that held back the token. -/
theorem settled (coherent : Coherent network base right state) {tuple : Tuple}
    (settled : Settled network base view right state id tuple
      (.join left input tests true functions)) :
    Settled network base view (Less right (· = id) fact) after id tuple
        (.join left input tests true functions) ∨
      (∃ facts, (state.cell network base id tuple).blocked = some facts ∧
          frees fact facts = true) ∧
        Owed network base view (Less right (· = id) fact) after id tuple
          (.join left input tests true functions) := by
  obtain ⟨holding, token⟩ := settled
  cases blocked : (state.cell network base id tuple).blocked with
  | none =>
      have gone := loosened.blocked blocked
      refine .inl ⟨fun last => iff_of_false ?_ ?_, ?_⟩
      · rintro ⟨facts, held, -⟩
        cases gone.symm.trans held
      · rintro ⟨stands, joins⟩
        obtain ⟨facts, held, -⟩ := (holding last).mpr ⟨stands.1, joins⟩
        cases blocked.symm.trans held
      · rw [loosened.token, token, blocked, gone]
        rfl
  | some facts =>
      have absent := coherent.exclusive blocked
      have joins : ∀ last, facts.contains last = true ↔
          right id last ∧ view.Joins functions tests tuple last := by
        intro last
        rw [← holding last, blocked]
        simp only [Option.some.injEq, exists_eq_left']
      have left : (after.cell network base id tuple).blocked = loosen fact facts :=
        loosened.blocked blocked
      cases rest : loosen fact facts with
      | none =>
          have isFree := loosen_eq_none rest
          refine .inr ⟨⟨facts, rfl, isFree⟩, left.trans rest,
            (loosened.token id tuple).trans absent, ?_⟩
          rintro last ⟨⟨stands, different⟩, joined⟩
          exact different ⟨rfl, (frees_iff.mp isFree last).mp ((joins last).mpr ⟨stands, joined⟩)⟩
      | some others =>
          obtain ⟨_, _, _, _, -, -, nonempty, -⟩ := coherent.blocked blocked
          obtain ⟨-, members⟩ := loosen_eq_some nonempty rest
          refine .inl ⟨fun last => ?_, ?_⟩
          · rw [left, rest]
            simp only [Option.some.injEq, exists_eq_left']
            rw [members, joins]
            constructor
            · rintro ⟨different, stands, joined⟩
              exact ⟨⟨stands, fun same => different same.2⟩, joined⟩
            · rintro ⟨⟨stands, different⟩, joined⟩
              exact ⟨fun same => different ⟨rfl, same⟩, stands, joined⟩
          · rw [loosened.token, absent, left, rest]
            exact iff_of_false Bool.false_ne_true (Option.some_ne_none others)

/-- The tokens that only the fact held back are freed. -/
theorem relieves (live : network.kind? id = some (.join left input tests true functions))
    (coherent : Coherent network base right state) {freed : List (NodeId × Tuple)}
    (isFreed : ∀ place, place ∈ freed ↔ place.1 = id ∧ ∃ facts,
      (state.cell network base id place.2).blocked = some facts ∧ frees fact facts = true) :
    Relieves network base view right (· = id) fact state freed after := by
  refine ⟨loosened.seeded, loosened.alpha, loosened.keeps live coherent, fun place member => ?_,
    fun place member => ?_, fun {other tuple} _ => ?_, fun {other tuple rest} blocked => ?_,
    fun {owed} settledSave => ⟨fun {other kind otherLeft tuple} otherLive isLeft offered => ?_⟩,
    fun {excused} covers =>
      ⟨fun {other otherLeft otherInput otherTests otherFunctions tuple} otherLive offered => ?_⟩⟩
  · exact ⟨left, input, tests, functions, ((isFreed place).mp member).1 ▸ live⟩
  · obtain ⟨rfl, facts, blocked, isFree⟩ := (isFreed place).mp member
    exact ⟨facts, blocked, fun other => frees_iff.mp isFree other⟩
  · by_cases here : other = id
    · subst here
      exact ⟨loosened.token other tuple, by rw [loosened.cells, if_pos rfl],
        .inr (loosened.blocked rfl)⟩
    · exact loosened.elsewhere here tuple ▸ .refl fact _
  · by_cases here : other = id
    · subst here
      obtain ⟨facts, before, isRest⟩ :=
        Option.bind_eq_some_iff.mp ((loosened.blocked rfl).symm.trans blocked)
      obtain ⟨_, _, _, _, -, -, nonempty, -⟩ := coherent.blocked before
      obtain ⟨-, members⟩ := loosen_eq_some nonempty isRest
      refine ⟨facts, before, fun last held => ((members last).mp held).2, fun last held => ?_⟩
      by_cases same : last = fact
      · exact .inl same
      · exact .inr ((members last).mpr ⟨same, held⟩)
    · rw [loosened.elsewhere here] at blocked
      exact ⟨rest, blocked, fun _ held => held, fun _ held => .inr held⟩
  · have before := loosened.offered offered
    by_cases here : other = id
    · subst here
      cases live.symm.trans otherLive
      rcases settledSave.place live isLeft before with settled | ⟨member, blocked, absent, joins⟩
      · refine (loosened.settled coherent settled).imp_right ?_
        rintro ⟨lone, owing⟩
        exact ⟨List.mem_append_right _ ((isFreed (other, tuple)).mpr ⟨rfl, lone⟩), owing⟩
      · exact .inr ⟨List.mem_append_left _ member, loosened.blocked blocked,
          (loosened.token other tuple).trans absent, fun last here => joins last ⟨here.1.1, here.2⟩⟩
    · have same := loosened.elsewhere here
      refine (settledSave.place otherLive isLeft before).imp (fun settled => ?_) fun owing => ?_
      · exact (settled.congr fun longer _ => same longer).less here
      · exact ⟨List.mem_append_left _ owing.1, (owing.2.congr (same tuple)).less⟩
  · rcases covers.place otherLive (loosened.offered offered) with (token | held) | isExcused
    · exact .inl (.inl ((loosened.token other tuple).trans token))
    · by_cases here : other = id
      · subst here
        obtain ⟨facts, blocked⟩ := Option.ne_none_iff_exists'.mp held
        have left : (after.cell network base other tuple).blocked = loosen fact facts :=
          loosened.blocked blocked
        cases rest : loosen fact facts with
        | none =>
            exact .inr (.inr ((isFreed (other, tuple)).mpr
              ⟨rfl, facts, blocked, loosen_eq_none rest⟩))
        | some others => exact .inl (.inr (left.trans rest ▸ Option.some_ne_none others))
      · rw [loosened.elsewhere here]
        exact .inl (.inr held)
    · exact .inr (.inl isExcused)

end Loosened

/-- Taking a fact back from a negated join takes it out of those that hold back tokens, and frees
the tokens that it alone held back. -/
theorem loosened_of_ends {id input : NodeId} {left : Option NodeId} {tests : List Expr}
    {functions : FunctionTable}
    (live : network.kind? id = some (.join left input tests true functions)) {fact : Handle}
    {result : Except Error (List (NodeId × Tuple))}
    (run : Ends (MatchM.rightRetractJoin network fact id) state result after) :
    ∃ freed, result = .ok freed ∧ Loosened network base state id fact after ∧
      ∀ place, place ∈ freed ↔ place.1 = id ∧ ∃ facts,
        (state.cell network base id place.2).blocked = some facts ∧ frees fact facts = true := by
  have isKind : (network.node? id).map Node.kind = some (.join left input tests true functions) :=
    live
  unfold MatchM.rightRetractJoin MatchM.change at run
  simp only [isKind] at run
  rw [ends_get_bind] at run
  cases found : state.memory.blockers.find? id with
  | none =>
      simp only [found] at run
      obtain ⟨rfl, rfl⟩ := (ends_pure _).mp run
      have free : ∀ tuple, (after.cell network base id tuple).blocked = none := by
        intro tuple
        simp only [cell, NetworkMemory.blockedAt, found]
        rfl
      refine ⟨[], rfl, ⟨rfl, rfl, rfl, fun other tuple => ?_⟩, fun place =>
        iff_of_false List.not_mem_nil ?_⟩
      · by_cases here : other = id
        · subst here
          rw [if_pos rfl, free]
          exact Cell.ext rfl (free tuple) rfl
        · rw [if_neg here]
      · rintro ⟨-, facts, blocked, -⟩
        cases (free place.2).symm.trans blocked
  | some blocked =>
      simp only [found] at run
      rw [ends_modify_bind] at run
      obtain ⟨rfl, isAfter⟩ := (ends_pure _).mp run
      have own : ∀ tuple, (state.cell network base id tuple).blocked = blocked.find? tuple := by
        intro tuple
        simp only [cell, NetworkMemory.blockedAt, found]
        rfl
      refine ⟨_, rfl, ⟨isAfter ▸ rfl, isAfter ▸ rfl, isAfter ▸ rfl, fun other tuple => ?_⟩,
        fun place => ?_⟩
      · rw [isAfter, own]
        refine (state.cell_setBlocked id _ other tuple).trans ?_
        rw [SortedMap.find?_filterMap]
        rfl
      · rw [List.mem_map, own]
        constructor
        · rintro ⟨tuple, member, rfl⟩
          obtain ⟨facts, held⟩ := SortedMap.contains_eq_true.mp (SortedMap.mem_keys.mp member)
          rw [SortedMap.find?_filter, Option.filter_eq_some_iff] at held
          exact ⟨rfl, facts, held⟩
        · rintro ⟨rfl, facts, held⟩
          refine ⟨place.2, SortedMap.mem_keys.mpr (SortedMap.contains_eq_true.mpr ⟨facts, ?_⟩), rfl⟩
          rw [SortedMap.find?_filter, Option.filter_eq_some_iff]
          exact held

section

variable (sound : network.Sound)

include sound

/-- Taking a fact back from a join never fails. -/
theorem rightRetractJoin_relieves {id input : NodeId} {left : Option NodeId} {tests : List Expr}
    {negated : Bool} {functions : FunctionTable}
    (live : network.kind? id = some (.join left input tests negated functions))
    (coherent : Coherent network base right state) {fact : Handle}
    {result : Except Error (List (NodeId × Tuple))}
    (run : Ends (MatchM.rightRetractJoin network fact id) state result after) :
    ∃ freed, result = .ok freed ∧
      Relieves network base view right (· = id) fact state freed after := by
  cases negated with
  | true =>
      obtain ⟨freed, done, loosened, isFreed⟩ := loosened_of_ends live run
      exact ⟨freed, done, loosened.relieves live coherent isFreed⟩
  | false =>
      have isKind : (network.node? id).map Node.kind =
          some (.join left input tests false functions) := live
      unfold MatchM.rightRetractJoin MatchM.change at run
      simp only [isKind] at run
      rw [ends_get_bind, ends_modify_bind] at run
      obtain ⟨rfl, rfl⟩ := (ends_pure _).mp run
      exact ⟨[], rfl, retractOutput_relieves sound live coherent fact⟩

/-- Taking a fact back from the joins behind a node of the alpha level. -/
theorem rightRetract_relieves (coherent : Coherent network base right state) {fact : Handle}
    {id : NodeId} {result : Except Error (List (NodeId × Tuple))}
    (run : Ends (MatchM.rightRetract network fact id) state result after) :
    ∃ freed, result = .ok freed ∧ Relieves network base view right
      (fun other => (network.kind? other).bind NodeKind.right? = some id) fact state freed
      after := by
  unfold MatchM.rightRetract at run
  cases found : network.node? id with
  | none =>
      simp only [found] at run
      obtain ⟨rfl, rfl⟩ := (ends_pure _).mp run
      have nowhere : (fun other => (network.kind? other).bind NodeKind.right? = some id) =
          fun _ => False := by
        refine funext fun other => eq_false fun isRight => ?_
        obtain ⟨kind, live, isRight⟩ := Option.bind_eq_some_iff.mp isRight
        obtain ⟨input, inputLive⟩ := (sound.wellFormed.fits live).input_live
          (NodeKind.mem_inputs.mpr (.inr isRight))
        rw [Network.kind?_eq_none.mpr found] at inputLive
        cases inputLive
      exact ⟨[], rfl, nowhere ▸ .refl coherent⟩
  | some node =>
      simp only [found] at run
      have isOutput : ∀ {other}, other ∈ node.rightChildren ↔
          (network.kind? other).bind NodeKind.right? = some id := by
        intro other
        rw [sound.wellFormed.mem_rightChildren found, Option.bind_eq_some_iff]
      have loop : ∀ {between : Matching} {freed : Except Error (List (List (NodeId × Tuple)))},
          Ends (node.rightChildren.mapM (MatchM.rightRetractJoin network fact)) state freed
            between → ∃ values, freed = .ok values ∧ Relieves network base view right
              (fun other => ∃ join ∈ node.rightChildren, other = join) fact state values.flatten
              between := by
        intro between freed walk
        refine Relieves.mapM coherent walk ?_
        intro join member right before result' after' coherent step
        obtain ⟨kind, live, isRight⟩ := Option.bind_eq_some_iff.mp (isOutput.mp member)
        cases kind with
        | objectType | alpha | eval | terminal => cases isRight
        | join left input tests negated functions =>
            exact rightRetractJoin_relieves sound live coherent step
      have outputs : (fun other => ∃ join ∈ node.rightChildren, other = join) =
          fun other => (network.kind? other).bind NodeKind.right? = some id :=
        funext fun other => propext (exists_eq_right'.trans isOutput)
      rw [outputs] at loop
      rcases ends_bind.mp run with ⟨freed, between, walk, last⟩ | ⟨error, walk, -⟩
      · obtain ⟨rfl, rfl⟩ := (ends_pure _).mp last
        obtain ⟨_, same, relieves⟩ := loop walk
        cases same
        exact ⟨_, rfl, relieves⟩
      · obtain ⟨_, same, -⟩ := loop walk
        cases same

/-- Taking a fact back from the joins behind all nodes of the alpha level that held it. -/
theorem rightRetract_mapM_relieves (view : FactView) (coherent : Coherent network base right state)
    {fact : Handle} {holders : List NodeId}
    {result : Except Error (List (List (NodeId × Tuple)))}
    (run : Ends (holders.mapM (MatchM.rightRetract network fact)) state result after) :
    ∃ freed, result = .ok freed ∧ Relieves network base view right
      (fun other => ∃ id ∈ holders, (network.kind? other).bind NodeKind.right? = some id) fact state
      freed.flatten after :=
  Relieves.mapM coherent run fun _ _ {_ _ _ _} coherent step =>
    rightRetract_relieves sound coherent step

/-! ## Letting through what is owed -/

omit sound in
/-- What a join is offered is what the memories hold on its left. -/
theorem contains_leftTokens {left : Option NodeId} {token : Tuple} :
    (state.memory.leftTokens left).contains token = true ↔
      Offered network base state left token :=
  SortedMap.mem_keys.symm.trans mem_keys_leftTokens

/-- A token that was owed is let through, or a condition has failed on its way. -/
structure Pays (network : Network) (base : Agenda) (view : FactView)
    (right : NodeId → Handle → Prop) (state : Matching) (place : NodeId × Tuple)
    (result : Except Error Unit) (after : Matching) : Prop
    extends Keeps network base right state after where
  outside : ∀ {id tuple}, ¬ Within network place.1 place.2 id tuple →
    after.cell network base id tuple = state.cell network base id tuple
  settled : result = .ok () → ∀ {rest},
    SettledSave network base view right state (place :: rest) →
    SettledSave network base view right after rest
  covers : ∀ {excused},
    Covers network base state (fun id tuple => excused id tuple ∨ (id, tuple) = place) →
    Outcome result (fun _ => Covers network base after excused) fun _ =>
      Covers network base after fun id tuple => excused id tuple ∨ place.2 <+: tuple

/-- A token that is let through a negated join is not owed any more. -/
theorem emit_pays {id input : NodeId} {left : Option NodeId} {tests : List Expr}
    {functions : FunctionTable}
    (live : network.kind? id = some (.join left input tests true functions))
    (coherent : Coherent network base right state) (reads : Reads network right state.memory)
    {token : Tuple} (offered : Offered network base state left token)
    (free : (state.cell network base id token).blocked = none) {result : Except Error Unit}
    (run : Ends (MatchM.emit network view id token) state result after) :
    Pays network base view right state (id, token) result after := by
  obtain ⟨arity, isLeftArity⟩ := sound.wellFormed.exists_left_arity sound.accounted live rfl
  have isArity : network.Arity (some id) arity := .join live isLeftArity
  have length : token.length = arity := coherent.length isLeftArity offered
  -- Another place is owed on its own.
  have others : ∀ {other : NodeId} {tuple : Tuple} {rest : List (NodeId × Tuple)},
      (other, tuple) ∈ (id, token) :: rest → ¬ (other = id ∧ tuple = token) →
      (other, tuple) ∈ rest := by
    intro other tuple rest member apart
    refine (List.mem_cons.mp member).resolve_left fun same => apart ?_
    exact Prod.mk.inj same
  have supports : Supports network base right state id (.join left input tests true functions)
      token := offered
  have paid : ∀ {between : Matching} {excused : NodeId → Tuple → Prop},
      (between.cell network base id token).token = true →
      Covers network base between (fun other tuple => excused other tuple ∨
        (other, tuple) = (id, token)) → Covers network base between excused := by
    intro between excused present covers
    refine covers.resolve fun _ _ here => here.symm.imp_left fun same => ?_
    obtain ⟨rfl, rfl⟩ := Prod.mk.inj same
    exact .inl present
  rcases emit_emitted sound live supports free coherent reads run with
    ⟨present, rfl, rfl⟩ | ⟨absent, emitted⟩
  · refine ⟨⟨rfl, rfl, coherent⟩, fun _ => rfl, fun _ {rest} settledSave =>
      ⟨fun {other kind otherLeft tuple} otherLive isLeft otherOffered => ?_⟩, paid present⟩
    refine (settledSave.place otherLive isLeft otherOffered).imp_right fun owing =>
      ⟨others owing.1 ?_, owing.2⟩
    rintro ⟨rfl, rfl⟩
    cases live.symm.trans otherLive
    exact Bool.false_ne_true (owing.2.2.1.symm.trans present)
  · refine ⟨⟨emitted.spread.seeded, emitted.spread.alpha, emitted.coherent⟩,
      emitted.spread.outside, fun done {rest} settledSave =>
        ⟨fun {other kind otherLeft tuple} otherLive isLeft otherOffered => ?_⟩,
      fun {excused} covers => ?_⟩
    · rcases place_cases sound emitted.coherent.toGrounded live rfl isArity length
        emitted.spread.seeded emitted.spread.outside otherLive isLeft otherOffered with
        behind | ⟨rfl, starts⟩ | ⟨before, same⟩
      · exact .inl (emitted.settled done otherLive isLeft behind otherOffered)
      · cases live.symm.trans otherLive
        cases isLeft
        have isToken : tuple = token := starts.eq_of_length
          ((emitted.coherent.length isLeftArity otherOffered).trans length.symm)
        subst isToken
        rcases settledSave.place live rfl offered with settled | ⟨-, -, -, joins⟩
        · exact absurd (settled.2.mpr free) (Bool.eq_false_iff.mp absent)
        · have stillFree := emitted.coherent.free_of_token emitted.present
          refine .inl ⟨fun fact => iff_of_false ?_ (joins fact),
            iff_of_true emitted.present stillFree⟩
          rintro ⟨facts, blocked, -⟩
          cases stillFree.symm.trans blocked
      · refine (settledSave.place otherLive isLeft before).imp (fun settled => settled.congr same)
          fun owing => ⟨others owing.1 ?_, owing.2.congr (same tuple (List.prefix_refl _))⟩
        rintro ⟨rfl, rfl⟩
        have present := same tuple (List.prefix_refl _)
        rw [← present, emitted.present] at absent
        cases absent
    · cases result with
      | ok => exact paid emitted.present (emitted.covers sound covers nofun)
      | error error =>
          refine paid emitted.present (emitted.covers sound (covers.mono (Or.imp_left .inl)) ?_)
          exact fun {_} _ {other tuple} starts => .inl (.inr starts)

omit sound in
/-- A token that may be free is let through, unless it is not offered or is held back again. -/
theorem ends_unblock {id input : NodeId} {left : Option NodeId} {tests : List Expr}
    {functions : FunctionTable}
    (live : network.kind? id = some (.join left input tests true functions))
    (coherent : Coherent network base right state) {token : Tuple} {result : Except Error Unit}
    (run : Ends (MatchM.unblock network view id token) state result after) :
    (Offered network base state left token ∧ (state.cell network base id token).blocked = none ∧
        Ends (MatchM.emit network view id token) state result after) ∨
      (¬ (Offered network base state left token ∧
          (state.cell network base id token).blocked = none) ∧
            result = .ok () ∧ after = state) := by
  have isKind : (network.node? id).map Node.kind = some (.join left input tests true functions) :=
    live
  unfold MatchM.unblock at run
  simp only [isKind] at run
  rw [ends_get_bind, Bool.not_not] at run
  have isFree : (((state.memory.blockedAt id).find? token).getD ∅).isEmpty = true ↔
      (state.cell network base id token).blocked = none := by
    change _ ↔ (state.memory.blockedAt id).find? token = none
    cases blocked : (state.memory.blockedAt id).find? token with
    | none => exact iff_of_true rfl rfl
    | some facts =>
        have held : (state.cell network base id token).blocked = some facts := blocked
        obtain ⟨_, _, _, _, -, -, nonempty, -⟩ := coherent.blocked held
        refine iff_of_false (Bool.eq_false_iff.mp nonempty) nofun
  by_cases pass : ((state.memory.leftTokens left).contains token &&
      (((state.memory.blockedAt id).find? token).getD ∅).isEmpty) = true
  · rw [if_pos pass] at run
    obtain ⟨here, free⟩ := Bool.and_eq_true_iff.mp pass
    exact .inl ⟨contains_leftTokens.mp here, isFree.mp free, run⟩
  · rw [if_neg pass] at run
    refine .inr ⟨fun both => pass ?_, (ends_pure _).mp run⟩
    exact Bool.and_eq_true_iff.mpr ⟨contains_leftTokens.mpr both.1, isFree.mpr both.2⟩

/-- What was owed is let through, unless it is not offered or is held back again. -/
theorem unblock_pays {id : NodeId} {token : Tuple} (negates : Negates network id)
    (coherent : Coherent network base right state) (reads : Reads network right state.memory)
    {result : Except Error Unit}
    (run : Ends (MatchM.unblock network view id token) state result after) :
    Pays network base view right state (id, token) result after := by
  obtain ⟨left, input, tests, functions, live⟩ := negates
  rcases ends_unblock live coherent run with ⟨offered, free, run⟩ | ⟨shut, rfl, rfl⟩
  · exact emit_pays sound live coherent reads offered free run
  · refine ⟨⟨rfl, rfl, coherent⟩, fun _ => rfl, fun _ {rest} settledSave =>
      ⟨fun {other kind otherLeft tuple} otherLive isLeft offered => ?_⟩, fun {excused} covers =>
        covers.resolve fun {other otherLeft _ _ _ tuple} otherLive offered here => ?_⟩
    · refine (settledSave.place otherLive isLeft offered).imp_right fun owing => ⟨?_, owing.2⟩
      refine (List.mem_cons.mp owing.1).resolve_left fun same => shut ?_
      obtain ⟨rfl, rfl⟩ := Prod.mk.inj same
      cases live.symm.trans otherLive
      cases isLeft
      exact ⟨offered, owing.2.1⟩
    · refine here.symm.imp_left fun same => .inr fun unheld => shut ?_
      obtain ⟨rfl, rfl⟩ := Prod.mk.inj same
      cases live.symm.trans otherLive
      exact ⟨offered, unheld⟩

/-- Tokens that were owed are let through one after another, unless a condition fails; then what
starts with one of them may be lost. -/
structure PaysAll (network : Network) (base : Agenda) (view : FactView)
    (right : NodeId → Handle → Prop) (state : Matching) (freed : List (NodeId × Tuple))
    (result : Except Error Unit) (after : Matching) : Prop
    extends Keeps network base right state after where
  outside : ∀ {id tuple}, (∀ place ∈ freed, ¬ Within network place.1 place.2 id tuple) →
    after.cell network base id tuple = state.cell network base id tuple
  settled : result = .ok () → SettledSave network base view right state freed →
    SettledSave network base view right after []
  covers : ∀ {excused},
    Covers network base state (fun id tuple => excused id tuple ∨ (id, tuple) ∈ freed) →
    Outcome result (fun _ => Covers network base after excused) fun _ =>
      Covers network base after fun id tuple => excused id tuple ∨
        ∃ place ∈ freed, place.2 <+: tuple

/-- Freeing tuples in turn pays what is owed of each, up to a failure. -/
theorem unblock_forM_pays {freed : List (NodeId × Tuple)}
    (negates : ∀ place ∈ freed, Negates network place.1)
    (coherent : Coherent network base right state) (reads : Reads network right state.memory)
    {result : Except Error Unit}
    (run : Ends (freed.forM fun place => MatchM.unblock network view place.1 place.2) state result
      after) :
    PaysAll network base view right state freed result after := by
  induction freed generalizing state with
  | nil =>
      obtain ⟨rfl, rfl⟩ := (ends_pure _).mp run
      exact ⟨⟨rfl, rfl, coherent⟩, fun _ => rfl, fun _ settled => settled, fun {excused} covers =>
        covers.mono fun here => here.resolve_right List.not_mem_nil⟩
  | cons place rest ih =>
      rw [List.forM_eq_forM, List.forM_cons] at run
      have next : ∀ {excused : NodeId → Tuple → Prop}, Covers network base state (fun id tuple =>
          excused id tuple ∨ (id, tuple) ∈ place :: rest) → Covers network base state
            fun id tuple => (excused id tuple ∨ (id, tuple) ∈ rest) ∨ (id, tuple) = place := by
        refine fun covers => covers.mono fun here => ?_
        rw [or_assoc]
        exact here.imp_right fun member => (List.mem_cons.mp member).symm
      rcases ends_bind.mp run with ⟨_, between, first, others⟩ | ⟨error, first, rfl⟩
      · have pays := unblock_pays sound (negates _ List.mem_cons_self) coherent reads first
        have onward := ih (fun other member => negates other (List.mem_cons_of_mem _ member))
          pays.coherent (reads.congr pays.alpha) others
        refine ⟨pays.toKeeps.trans onward.toKeeps, fun apart =>
          (onward.outside fun other member => apart other (List.mem_cons_of_mem _ member)).trans
            (pays.outside (apart place List.mem_cons_self)),
          fun done settled => onward.settled done (pays.settled rfl settled),
          fun {excused} covers => ?_⟩
        refine (onward.covers (pays.covers (next covers))).imp (fun _ covers => covers)
          fun _ lost =>
          lost.mono (Or.imp_right ?_)
        rintro ⟨other, member, starts⟩
        exact ⟨other, List.mem_cons_of_mem _ member, starts⟩
      · have pays := unblock_pays sound (negates _ List.mem_cons_self) coherent reads first
        refine ⟨pays.toKeeps, fun apart => pays.outside (apart place List.mem_cons_self), nofun,
          fun {excused} covers =>
          Covers.mono (pays.covers (next covers)) ?_⟩
        rintro id tuple ((here | member) | starts)
        · exact .inl here
        · exact .inr ⟨(id, tuple), List.mem_cons_of_mem _ member, List.prefix_refl _⟩
        · exact .inr ⟨place, List.mem_cons_self, starts⟩

end

end Rete.Matching
