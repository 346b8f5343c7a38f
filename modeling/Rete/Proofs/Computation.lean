import Mathlib.Data.List.Forall2

/-!
# Computations that may fail and keep their effects

Propagation, operations on sessions and evaluation are all computations on a state that end with a
result or an error, and in both cases with a state. `Ends` relates the state before to the outcome;
it is taken apart along the steps of a computation (`ends_bind`), and along the items that one goes
through (`Ends.forM`, `Ends.mapM`). A `Safe` computation keeps what holds of the state and fails in
certain ways only. Two computations that run in `Lockstep` yield the same from related states.
-/

namespace Rete

variable {σ ε α β : Type}

/-- A computation that starts in a state ends with a result, in a state. -/
def Ends (operation : ExceptT ε (StateM σ) α) (before : σ) (result : Except ε α) (after : σ) :
    Prop :=
  operation.run.run before = (result, after)

/-- A result that satisfies the first if it is a value, and the second if it is an error. -/
def Outcome (result : Except ε α) (value : α → Prop) (failure : ε → Prop) : Prop :=
  match result with
  | .ok a => value a
  | .error e => failure e

@[simp] theorem outcome_ok {value : α → Prop} {failure : ε → Prop} (a : α) :
    Outcome (.ok a) value failure ↔ value a := Iff.rfl

@[simp] theorem outcome_error {value : α → Prop} {failure : ε → Prop} (e : ε) :
    Outcome (.error e) value failure ↔ failure e := Iff.rfl

/-- An outcome may be described more weakly. -/
theorem Outcome.imp {result : Except ε α} {value value' : α → Prop} {failure failure' : ε → Prop}
    (outcome : Outcome result value failure) (ofValue : ∀ a, value a → value' a)
    (ofFailure : ∀ e, failure e → failure' e) : Outcome result value' failure' := by
  cases result with
  | ok a => exact ofValue a outcome
  | error e => exact ofFailure e outcome

/-- Every result has some outcome. -/
theorem Outcome.trivial (result : Except ε α) : Outcome result (fun _ => True) fun _ => True := by
  cases result <;> exact True.intro

/-- What follows a value is taken up from what holds of the value. -/
theorem Outcome.bind {first : Except ε β} {next : β → Except ε α} {mid : β → Prop}
    {value : α → Prop} {failure : ε → Prop} (one : Outcome first mid failure)
    (two : ∀ b, mid b → Outcome (next b) value failure) :
    Outcome (first >>= next) value failure := by
  cases first with
  | ok b => exact two b one
  | error e => exact one

/-- The value of two steps is that of the second one for a value of the first. -/
theorem exists_of_bind_eq_ok {first : Except ε β} {next : β → Except ε α} {a : α}
    (isOk : first >>= next = .ok a) : ∃ b, first = .ok b ∧ next b = .ok a := by
  cases first with
  | ok b => exact ⟨b, rfl, isOk⟩
  | error e => cases isOk

/-- A result with a value is that value. -/
theorem eq_ok_of_toOption {result : Except ε α} {a : α} (yields : result.toOption = some a) :
    result = .ok a := by
  cases result with
  | ok b => exact congrArg Except.ok (Option.some.inj yields)
  | error e => cases yields

/-- A result that has a value is the value that is read off it. -/
theorem eq_ok_getD [Inhabited α] {result : Except ε α} (isOk : result.toOption.isSome = true) :
    result = .ok (result.toOption.getD default) := by
  cases result with
  | ok a => rfl
  | error e => cases isOk

/-! ## Steps -/

section Steps

variable {before after : σ} {result : Except ε α}

/-- Every computation ends, in one way. -/
theorem ends_run (operation : ExceptT ε (StateM σ) α) (before : σ) :
    Ends operation before (operation.run.run before).1 (operation.run.run before).2 := rfl

/-- An operation ends in one way only. -/
theorem Ends.unique {operation : ExceptT ε (StateM σ) α} {other : Except ε α} {elsewhere : σ}
    (one : Ends operation before result after) (two : Ends operation before other elsewhere) :
    result = other ∧ after = elsewhere := by
  have same : (result, after) = (other, elsewhere) := one.symm.trans two
  exact Prod.mk.inj same

/-- How an operation ends is read off its run. -/
theorem ends_of_toOption {operation : ExceptT ε (StateM σ) α} {a : α}
    (yields : (operation.run.run before).1.toOption = some a) :
    Ends operation before (.ok a) (operation.run.run before).2 := by
  have isResult := ends_run operation before
  rw [eq_ok_of_toOption yields] at isResult
  exact isResult

@[simp] theorem ends_pure (a : α) :
    Ends (pure a : ExceptT ε (StateM σ) α) before result after ↔
      result = .ok a ∧ after = before := by
  change ((Except.ok a, before) = (result, after)) ↔ _
  rw [Prod.mk.injEq]
  exact and_congr eq_comm eq_comm

@[simp] theorem ends_throw (e : ε) :
    Ends (throw e : ExceptT ε (StateM σ) α) before result after ↔
      result = .error e ∧ after = before := by
  change ((Except.error e, before) = (result, after)) ↔ _
  rw [Prod.mk.injEq]
  exact and_congr eq_comm eq_comm

@[simp] theorem ends_lift (given : Except ε α) :
    Ends (ExceptT.mk (pure given) : ExceptT ε (StateM σ) α) before result after ↔
      result = given ∧ after = before := by
  change ((given, before) = (result, after)) ↔ _
  rw [Prod.mk.injEq]
  exact and_congr eq_comm eq_comm

@[simp] theorem ends_get {result : Except ε σ} :
    Ends (get : ExceptT ε (StateM σ) σ) before result after ↔
      result = .ok before ∧ after = before := by
  change ((Except.ok before, before) = (result, after)) ↔ _
  rw [Prod.mk.injEq]
  exact and_congr eq_comm eq_comm

@[simp] theorem ends_modify {result : Except ε PUnit} (change : σ → σ) :
    Ends (modify change : ExceptT ε (StateM σ) PUnit) before result after ↔
      result = .ok ⟨⟩ ∧ after = change before := by
  change ((Except.ok PUnit.unit, change before) = (result, after)) ↔ _
  rw [Prod.mk.injEq]
  exact and_congr eq_comm eq_comm

/-- Taking a computation up after its first step. -/
theorem run_bind_eq (first : ExceptT ε (StateM σ) β) (next : β → ExceptT ε (StateM σ) α)
    (before : σ) : (first >>= next).run.run before =
      match first.run.run before with
      | (.ok b, between) => (next b).run.run between
      | (.error e, between) => (.error e, between) := by
  change (match first.run.run before with
    | (x, s) => (ExceptT.bindCont next x).run s) = _
  rcases first.run.run before with ⟨_ | _, _⟩ <;> rfl

/-- A computation goes on after a value, and ends with an error. -/
theorem ends_bind {first : ExceptT ε (StateM σ) β} {next : β → ExceptT ε (StateM σ) α} :
    Ends (first >>= next) before result after ↔
      (∃ b between, Ends first before (.ok b) between ∧ Ends (next b) between result after) ∨
        ∃ e, Ends first before (.error e) after ∧ result = .error e := by
  unfold Ends
  rw [run_bind_eq]
  rcases first.run.run before with ⟨e | b, between⟩
  · constructor
    · intro same
      obtain ⟨rfl, rfl⟩ := Prod.mk.inj same
      exact .inr ⟨e, rfl, rfl⟩
    · rintro (⟨b, state, same, -⟩ | ⟨e', same, rfl⟩)
      · exact absurd (Prod.mk.inj same).1 (by simp only [reduceCtorEq, not_false_eq_true])
      · cases same
        rfl
  · constructor
    · intro rest
      exact .inl ⟨b, between, rfl, rest⟩
    · rintro (⟨b', state, same, rest⟩ | ⟨e', same, -⟩)
      · obtain ⟨sameValue, rfl⟩ := Prod.mk.inj same
        cases sameValue
        exact rest
      · exact absurd (Prod.mk.inj same).1 (by simp only [reduceCtorEq, not_false_eq_true])

/-- A computation yields a value only if its first step does. -/
theorem Ends.bind_ok {first : ExceptT ε (StateM σ) β} {next : β → ExceptT ε (StateM σ) α} {a : α}
    (run : Ends (first >>= next) before (.ok a) after) :
    ∃ b between, Ends first before (.ok b) between ∧ Ends (next b) between (.ok a) after := by
  rcases ends_bind.mp run with found | ⟨e, -, failed⟩
  · exact found
  · cases failed

/-- A step that always yields a value. -/
theorem ends_bind_of_total {first : ExceptT ε (StateM σ) β} {next : β → ExceptT ε (StateM σ) α}
    {b : β} {between : σ} (step : Ends first before (.ok b) between) :
    Ends (first >>= next) before result after ↔ Ends (next b) between result after := by
  unfold Ends at step ⊢
  rw [run_bind_eq, step]

@[simp] theorem ends_get_bind {next : σ → ExceptT ε (StateM σ) α} :
    Ends (get >>= next) before result after ↔ Ends (next before) before result after :=
  ends_bind_of_total (ends_get.mpr ⟨rfl, rfl⟩)

@[simp] theorem ends_modify_bind {change : σ → σ} {next : PUnit → ExceptT ε (StateM σ) α} :
    Ends (modify change >>= next) before result after ↔
      Ends (next ⟨⟩) (change before) result after :=
  ends_bind_of_total ((ends_modify change).mpr ⟨rfl, rfl⟩)

@[simp] theorem ends_pure_bind {b : β} {next : β → ExceptT ε (StateM σ) α} :
    Ends (pure b >>= next) before result after ↔ Ends (next b) before result after :=
  ends_bind_of_total ((ends_pure b).mpr ⟨rfl, rfl⟩)

/-- A result that is taken over from outside. -/
theorem ends_lift_bind {given : Except ε β} {next : β → ExceptT ε (StateM σ) α} :
    Ends ((ExceptT.mk (pure given) : ExceptT ε (StateM σ) β) >>= next) before result after ↔
      (∃ b, given = .ok b ∧ Ends (next b) before result after) ∨
        ∃ e, given = .error e ∧ result = .error e ∧ after = before := by
  cases given with
  | ok b =>
      rw [ends_bind_of_total ((ends_lift _).mpr ⟨rfl, rfl⟩)]
      simp only [Except.ok.injEq, exists_eq_left', reduceCtorEq, false_and, exists_false, or_false]
  | error e =>
      rw [ends_bind]
      simp only [ends_lift, reduceCtorEq, false_and, exists_false, false_or, Except.error.injEq,
        exists_eq_left']
      constructor
      · rintro ⟨e', ⟨rfl, rfl⟩, rfl⟩
        exact ⟨rfl, rfl⟩
      · rintro ⟨rfl, rfl⟩
        exact ⟨e, ⟨rfl, rfl⟩, rfl⟩

@[simp] theorem ends_throw_bind {e : ε} {next : β → ExceptT ε (StateM σ) α} :
    Ends ((throw e : ExceptT ε (StateM σ) β) >>= next) before result after ↔
      result = .error e ∧ after = before := by
  unfold Ends
  rw [run_bind_eq]
  exact ends_throw e

/-- A computation whose outcome becomes its value yields one. -/
@[simp] theorem ends_map_run {operation : ExceptT ε (StateM σ) β}
    {result : Except ε (Except ε β)} :
    Ends (ExceptT.mk (Except.ok <$> operation.run) : ExceptT ε (StateM σ) (Except ε β)) before
      result after ↔ ∃ inner, Ends operation before inner after ∧ result = .ok inner := by
  unfold Ends
  change ((Except.ok (operation.run.run before).1, (operation.run.run before).2) =
    (result, after)) ↔ _
  rcases operation.run.run before with ⟨inner, state⟩
  constructor
  · intro same
    obtain ⟨rfl, rfl⟩ := Prod.mk.inj same
    exact ⟨inner, rfl, rfl⟩
  · rintro ⟨other, same, rfl⟩
    obtain ⟨rfl, rfl⟩ := Prod.mk.inj same
    rfl

end Steps

/-! ## Loops -/

section Loops

variable {ι : Type} {before after : σ}

/-- Going through a list keeps what each step hands on to the next, up to the first error. -/
theorem Ends.forM {step : ι → ExceptT ε (StateM σ) PUnit} {items : List ι}
    {result : Except ε PUnit} (run : Ends (items.forM step) before result after)
    (held : List ι → σ → Prop) (failure : ε → σ → Prop) (start : held items before)
    (each : ∀ item rest before result after, item ∈ items → held (item :: rest) before →
      Ends (step item) before result after →
        Outcome result (fun _ => held rest after) (failure · after)) :
    Outcome result (fun _ => held [] after) (failure · after) := by
  induction items generalizing before with
  | nil =>
      obtain ⟨rfl, rfl⟩ := (ends_pure _).mp run
      exact start
  | cons item rest ih =>
      rw [List.forM_eq_forM, List.forM_cons] at run
      rcases ends_bind.mp run with ⟨_, between, first, others⟩ | ⟨e, first, rfl⟩
      · refine ih others (each item rest _ _ _ List.mem_cons_self start first) ?_
        exact fun other others before result after member =>
          each other others before result after (List.mem_cons_of_mem _ member)
      · exact each item rest _ _ _ List.mem_cons_self start first

/-- Collecting the values of a list keeps what each step hands on to the next, up to the first
error. The values so far are known to each step. -/
theorem Ends.mapM {step : ι → ExceptT ε (StateM σ) β} {items : List ι}
    {result : Except ε (List β)} (run : Ends (items.mapM step) before result after)
    (held : List β → List ι → σ → Prop) (failure : ε → σ → Prop) (start : held [] items before)
    (each : ∀ done item rest before result after, item ∈ items → held done (item :: rest) before →
      Ends (step item) before result after →
        Outcome result (fun value => held (done ++ [value]) rest after) (failure · after)) :
    Outcome result (fun values => held values [] after) (failure · after) := by
  have general : ∀ (items' : List ι) (done : List β) {before : σ} {result : Except ε (List β)},
      (∀ item ∈ items', item ∈ items) → Ends (items'.mapM step) before result after →
      held done items' before →
      Outcome result (fun values => held (done ++ values) [] after) (failure · after) := by
    intro items'
    induction items' with
    | nil =>
        intro done before result _ run start
        rw [List.mapM_nil] at run
        obtain ⟨rfl, rfl⟩ := (ends_pure _).mp run
        simpa only [outcome_ok, List.append_nil] using start
    | cons item rest ih =>
        intro done before result within run start
        rw [List.mapM_cons] at run
        have here := within item List.mem_cons_self
        rcases ends_bind.mp run with ⟨value, between, first, others⟩ | ⟨e, first, rfl⟩
        · have onward := each done item rest _ _ _ here start first
          rcases ends_bind.mp others with ⟨values, last, remaining, ending⟩ | ⟨e, failed, rfl⟩
          · obtain ⟨rfl, rfl⟩ := (ends_pure _).mp ending
            have whole := ih (done ++ [value])
              (fun other member => within other (List.mem_cons_of_mem _ member)) remaining onward
            simpa only [outcome_ok, List.append_assoc, List.singleton_append] using whole
          · exact ih (done ++ [value])
              (fun other member => within other (List.mem_cons_of_mem _ member)) failed onward
        · exact each done item rest _ _ _ here start first
  have whole := general items [] (fun _ member => member) run start
  simpa only [List.nil_append] using whole

/-- What every value has that a step yields, all collected values have. -/
theorem Ends.mapM_all {step : ι → ExceptT ε (StateM σ) β} {items : List ι} {values : List β}
    (run : Ends (items.mapM step) before (.ok values) after) {property : β → Prop}
    (each : ∀ {item before value after}, Ends (step item) before (.ok value) after →
      property value) : ∀ value ∈ values, property value := by
  refine run.mapM (fun done _ _ => ∀ value ∈ done, property value) (fun _ _ => True)
    (fun value none => absurd none List.not_mem_nil) ?_
  intro done item rest before result after _ known one
  cases result with
  | error => exact trivial
  | ok value =>
      intro other member
      rcases List.mem_append.mp member with earlier | new
      · exact known other earlier
      · exact List.mem_singleton.mp new ▸ each one

end Loops

/-! ## Safe computations -/

/-- A computation that keeps what holds of the state, and fails in certain ways only. -/
structure Safe (held : σ → Prop) (failure : ε → Prop) (operation : ExceptT ε (StateM σ) α) :
    Prop where
  safe : ∀ {before result after}, Ends operation before result after → held before →
    held after ∧ Outcome result (fun _ => True) failure

namespace Safe

variable {ι : Type} {held : σ → Prop} {failure : ε → Prop}

/-- Yielding a value keeps every property of the state. -/
theorem pure (a : α) : Safe held failure (Pure.pure a : ExceptT ε (StateM σ) α) where
  safe run holds := by
    obtain ⟨rfl, rfl⟩ := (ends_pure _).mp run
    exact ⟨holds, trivial⟩

/-- An error that is allowed keeps every property of the state. -/
theorem throw {e : ε} (fails : failure e) :
    Safe held failure (throw e : ExceptT ε (StateM σ) α) where
  safe run holds := by
    obtain ⟨rfl, rfl⟩ := (ends_throw _).mp run
    exact ⟨holds, fails⟩

/-- A result computed without the state keeps every property of it. -/
theorem lift {given : Except ε α} (outcome : Outcome given (fun _ => True) failure) :
    Safe held failure (ExceptT.mk (Pure.pure given) : ExceptT ε (StateM σ) α) where
  safe run holds := by
    obtain ⟨rfl, rfl⟩ := (ends_lift _).mp run
    exact ⟨holds, outcome⟩

/-- A change of the state keeps the property that it keeps of each state. -/
theorem modify {change : σ → σ} (keeps : ∀ state, held state → held (change state)) :
    Safe held failure (modify change : ExceptT ε (StateM σ) PUnit) where
  safe run holds := by
    obtain ⟨rfl, rfl⟩ := (ends_modify _).mp run
    exact ⟨keeps _ holds, trivial⟩

/-- Operations that keep a property do so one after the other. -/
theorem bind {first : ExceptT ε (StateM σ) β} {next : β → ExceptT ε (StateM σ) α}
    (one : Safe held failure first) (two : ∀ b, Safe held failure (next b)) :
    Safe held failure (first >>= next) where
  safe run holds := by
    rcases ends_bind.mp run with ⟨b, between, start, rest⟩ | ⟨e, start, rfl⟩
    · exact (two b).safe rest (one.safe start holds).1
    · exact one.safe start holds

/-- What follows a value may rely on what is known of it. -/
theorem bind_value {first : ExceptT ε (StateM σ) β} {next : β → ExceptT ε (StateM σ) α}
    {property : β → Prop} (one : Safe held failure first)
    (yields : ∀ {before b after}, Ends first before (.ok b) after → held before → property b)
    (two : ∀ b, property b → Safe held failure (next b)) : Safe held failure (first >>= next) where
  safe run holds := by
    rcases ends_bind.mp run with ⟨b, between, start, rest⟩ | ⟨e, start, rfl⟩
    · exact (two b (yields start holds)).safe rest (one.safe start holds).1
    · exact one.safe start holds

/-- What follows a look at the state may rely on what holds of it. -/
theorem get_bind {next : σ → ExceptT ε (StateM σ) α}
    (each : ∀ state, held state → Safe held failure (next state)) :
    Safe held failure (get >>= next) where
  safe run holds := by
    rw [ends_get_bind] at run
    exact (each _ holds).safe run holds

/-- A computation whose outcome becomes its value does not fail. -/
theorem outcome {operation : ExceptT ε (StateM σ) α} (safe : Safe held failure operation) :
    Safe held failure (ExceptT.mk (Except.ok <$> operation.run) :
      ExceptT ε (StateM σ) (Except ε α)) where
  safe run holds := by
    obtain ⟨inner, step, rfl⟩ := ends_map_run.mp run
    exact ⟨(safe.safe step holds).1, trivial⟩

/-- Steps that keep a property of the state do so over a list. -/
theorem forM {step : ι → ExceptT ε (StateM σ) PUnit} {items : List ι}
    (each : ∀ item ∈ items, Safe held failure (step item)) :
    Safe held failure (items.forM step) := by
  induction items with
  | nil => exact .pure _
  | cons item rest ih =>
      rw [List.forM_eq_forM, List.forM_cons]
      apply Safe.bind (each item List.mem_cons_self)
      exact fun _ => ih fun other member => each other (List.mem_cons_of_mem _ member)

/-- Steps that keep a property of the state do so over a list and yield their values. -/
theorem mapM {step : ι → ExceptT ε (StateM σ) β} {items : List ι}
    (each : ∀ item ∈ items, Safe held failure (step item)) :
    Safe held failure (items.mapM step) := by
  induction items with
  | nil =>
      rw [List.mapM_nil]
      exact .pure _
  | cons item rest ih =>
      rw [List.mapM_cons]
      apply Safe.bind (each item List.mem_cons_self)
      intro b
      apply Safe.bind (ih fun other member => each other (List.mem_cons_of_mem _ member))
      exact fun bs => .pure _

end Safe

/-! ## Loops without a state -/

section Results

variable {items : List α}

/-- A loop in which each step yields a value yields all of them. -/
theorem mapM_eq_ok {step : α → Except ε β} {value : α → β}
    (each : ∀ item ∈ items, step item = .ok (value item)) :
    items.mapM step = .ok (items.map value) := by
  induction items with
  | nil => rfl
  | cons item rest ih =>
      rw [List.mapM_cons, each item List.mem_cons_self,
        ih fun other member => each other (List.mem_cons_of_mem _ member)]
      rfl

/-- Checks that all pass, pass together. -/
theorem forM_eq_ok {step : α → Except ε PUnit} (each : ∀ item ∈ items, step item = .ok ⟨⟩) :
    items.forM step = .ok ⟨⟩ := by
  induction items with
  | nil => rfl
  | cons item rest ih =>
      rw [List.forM_eq_forM, List.forM_cons, each item List.mem_cons_self]
      exact ih fun other member => each other (List.mem_cons_of_mem _ member)

/-- A loop in which each step succeeds and hands on what holds for the items so far. -/
theorem exists_foldlM {step : β → α → Except ε β} {start : β} (held : List α → β → Prop)
    (begins : held [] start) (each : ∀ done item rest acc, done ++ item :: rest = items →
      held done acc → ∃ next, step acc item = .ok next ∧ held (done ++ [item]) next) :
    ∃ last, items.foldlM step start = .ok last ∧ held items last := by
  have general : ∀ (rest done : List α) (acc : β), done ++ rest = items → held done acc →
      ∃ last, rest.foldlM step acc = .ok last ∧ held items last := by
    intro rest
    induction rest with
    | nil =>
        intro done acc split holds
        rw [List.append_nil] at split
        exact ⟨acc, rfl, split ▸ holds⟩
    | cons item rest ih =>
        intro done acc split holds
        obtain ⟨next, isNext, more⟩ := each done item rest acc split holds
        obtain ⟨last, isLast, all⟩ := ih (done ++ [item]) next
          (by rw [List.append_assoc]; exact split) more
        refine ⟨last, ?_, all⟩
        rw [List.foldlM_cons, isNext]
        exact isLast
  exact general items [] start rfl begins

/-- A loop that succeeds has taken up each item in one step, and hands on what holds for what was
made of the items so far. -/
theorem exists_forall₂_of_foldlM {γ : Type} {step : β → α → Except ε β} {start last : β}
    (related : α → γ → Prop) (held : List γ → β → Prop) (runs : items.foldlM step start = .ok last)
    (begins : held [] start)
    (each : ∀ {item made acc next}, held made acc → step acc item = .ok next →
      ∃ own, related item own ∧ held (made ++ [own]) next) :
    ∃ made, List.Forall₂ related items made ∧ held made last := by
  have general : ∀ (items : List α) (done : List γ) (acc : β), held done acc →
      items.foldlM step acc = .ok last →
      ∃ made, List.Forall₂ related items made ∧ held (done ++ made) last := by
    intro items
    induction items with
    | nil =>
        intro done acc holds runs
        cases runs
        exact ⟨[], .nil, by rwa [List.append_nil]⟩
    | cons item rest ih =>
        intro done acc holds runs
        rw [List.foldlM_cons] at runs
        obtain ⟨next, isNext, runs⟩ := exists_of_bind_eq_ok runs
        obtain ⟨own, isOwn, more⟩ := each holds isNext
        obtain ⟨made, isMade, all⟩ := ih (done ++ [own]) next more runs
        rw [List.append_assoc] at all
        exact ⟨own :: made, .cons isOwn isMade, all⟩
  exact general items [] start begins runs

/-- What holds of the start of a loop that succeeds and is kept by its steps holds at its end. -/
theorem holds_of_foldlM {step : β → α → Except ε β} {start last : β} (held : β → Prop)
    (runs : items.foldlM step start = .ok last) (begins : held start)
    (each : ∀ {acc item next}, held acc → step acc item = .ok next → held next) : held last := by
  obtain ⟨_, -, holds⟩ := exists_forall₂_of_foldlM (fun _ (_ : Unit) => True) (fun _ => held) runs
    begins fun holds isNext => ⟨(), trivial, each holds isNext⟩
  exact holds

end Results

/-! ## Two runs -/

/-- From related states two computations end with the same result, in related states. -/
def Lockstep {τ : Type} (related : σ → τ → Prop) (one : ExceptT ε (StateM σ) α)
    (other : ExceptT ε (StateM τ) α) : Prop :=
  ∀ ⦃before before'⦄, related before before' → ∃ result after after',
    Ends one before result after ∧ Ends other before' result after' ∧ related after after'

namespace Lockstep

variable {τ ι : Type} {related : σ → τ → Prop}

/-- Yielding one value on both sides. -/
theorem pure (a : α) : Lockstep related (Pure.pure a : ExceptT ε (StateM σ) α) (Pure.pure a) := by
  intro before before' alike
  exact ⟨.ok a, before, before', (ends_pure a).mpr ⟨rfl, rfl⟩, (ends_pure a).mpr ⟨rfl, rfl⟩, alike⟩

/-- Failing with one error on both sides. -/
theorem throw (e : ε) : Lockstep related (throw e : ExceptT ε (StateM σ) α) (throw e) := by
  intro before before' alike
  exact ⟨.error e, before, before', (ends_throw e).mpr ⟨rfl, rfl⟩, (ends_throw e).mpr ⟨rfl, rfl⟩,
    alike⟩

/-- Yielding one result on both sides, computed without the states. -/
theorem lift (given : Except ε α) :
    Lockstep related (ExceptT.mk (Pure.pure given) : ExceptT ε (StateM σ) α)
      (ExceptT.mk (Pure.pure given)) := by
  intro before before' alike
  exact ⟨given, before, before', (ends_lift given).mpr ⟨rfl, rfl⟩, (ends_lift given).mpr ⟨rfl, rfl⟩,
    alike⟩

/-- Changes that keep states related. -/
theorem modify {change : σ → σ} {change' : τ → τ}
    (each : ∀ {before before'}, related before before' →
      related (change before) (change' before')) :
    Lockstep related (modify change : ExceptT ε (StateM σ) PUnit) (modify change') := by
  intro before before' alike
  exact ⟨.ok ⟨⟩, change before, change' before', (ends_modify change).mpr ⟨rfl, rfl⟩,
    (ends_modify change').mpr ⟨rfl, rfl⟩, each alike⟩

/-- Operations in lockstep, one after the other. -/
theorem bind {one : ExceptT ε (StateM σ) β} {other : ExceptT ε (StateM τ) β}
    {next : β → ExceptT ε (StateM σ) α} {next' : β → ExceptT ε (StateM τ) α}
    (first : Lockstep related one other) (each : ∀ b, Lockstep related (next b) (next' b)) :
    Lockstep related (one >>= next) (other >>= next') := by
  intro before before' alike
  obtain ⟨result, mid, mid', ends, ends', between⟩ := first alike
  cases result with
  | error e =>
      exact ⟨.error e, mid, mid', ends_bind.mpr (.inr ⟨e, ends, rfl⟩),
        ends_bind.mpr (.inr ⟨e, ends', rfl⟩), between⟩
  | ok b =>
      obtain ⟨last, after, after', rest, rest', alike⟩ := each b between
      exact ⟨last, after, after', ends_bind.mpr (.inl ⟨b, mid, ends, rest⟩),
        ends_bind.mpr (.inl ⟨b, mid', ends', rest'⟩), alike⟩

/-- What comes after a look at the states has to agree on related states only. -/
theorem get_bind {next : σ → ExceptT ε (StateM σ) α} {next' : τ → ExceptT ε (StateM τ) α}
    (each : ∀ {state state'}, related state state' →
      Lockstep related (next state) (next' state')) :
    Lockstep related (get >>= next) (get >>= next') := by
  intro before before' alike
  obtain ⟨result, after, after', ends, ends', alike⟩ := each alike alike
  exact ⟨result, after, after', ends_get_bind.mpr ends, ends_get_bind.mpr ends', alike⟩

/-- Operations in lockstep stay so when their errors are caught and returned as results. -/
theorem outcome {one : ExceptT ε (StateM σ) α} {other : ExceptT ε (StateM τ) α}
    (lockstep : Lockstep related one other) :
    Lockstep related (ExceptT.mk (Except.ok <$> one.run) : ExceptT ε (StateM σ) (Except ε α))
      (ExceptT.mk (Except.ok <$> other.run)) := by
  intro before before' alike
  obtain ⟨result, after, after', ends, ends', alike⟩ := lockstep alike
  exact ⟨.ok result, after, after', ends_map_run.mpr ⟨result, ends, rfl⟩,
    ends_map_run.mpr ⟨result, ends', rfl⟩, alike⟩

/-- Steps in lockstep over one list. -/
theorem forM {step : ι → ExceptT ε (StateM σ) PUnit} {step' : ι → ExceptT ε (StateM τ) PUnit}
    (each : ∀ item, Lockstep related (step item) (step' item)) (items : List ι) :
    Lockstep related (items.forM step) (items.forM step') := by
  induction items with
  | nil => exact .pure _
  | cons item rest ih => exact (each item).bind fun _ => ih

/-- Steps in lockstep over one list, with their values. -/
theorem mapM {step : ι → ExceptT ε (StateM σ) β} {step' : ι → ExceptT ε (StateM τ) β}
    (each : ∀ item, Lockstep related (step item) (step' item)) (items : List ι) :
    Lockstep related (items.mapM step) (items.mapM step') := by
  induction items with
  | nil =>
      rw [List.mapM_nil, List.mapM_nil]
      exact .pure _
  | cons item rest ih =>
      rw [List.mapM_cons, List.mapM_cons]
      exact (each item).bind fun _ => ih.bind fun _ => .pure _

end Lockstep

end Rete
