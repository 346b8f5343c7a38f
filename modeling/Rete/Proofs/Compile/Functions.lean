import Rete.Proofs.Compile.Package
import Rete.Proofs.Computation

/-!
# The numbers of local functions

Calls refer to a function of the package by its position among the declared functions, and the
function table holds the bodies that compiled. A body that does not compile leaves no gap, so the
functions behind it move up: a number stands for the function that was declared under it exactly
as long as all functions up to it compile (`PackageDecl.numbered_iff_compile`). In a package that
compiles without errors these are all functions (`PackageDecl.compilesTo_of_clean`).
-/

namespace Rete

/-! ## Entries that are left out -/

/-- What is at a position of a list of results comes from that position or one behind it; from that
position exactly if none is missing up to there. -/
theorem exists_of_getElem?_filterMap {α β : Type} (result : α → Option β) {items : List α}
    {index : Nat} {found : β} (isFound : (items.filterMap result)[index]? = some found) :
    ∃ own item, index ≤ own ∧ items[own]? = some item ∧ result item = some found ∧
      (own = index ↔ ∀ item ∈ items.take (index + 1), (result item).isSome) := by
  induction items generalizing index with
  | nil => cases isFound
  | cons head rest ih =>
      cases isHead : result head with
      | none =>
          rw [List.filterMap_cons_none isHead] at isFound
          obtain ⟨own, item, le, isItem, isResult, -⟩ := ih isFound
          refine ⟨own + 1, item, Nat.le_succ_of_le le, isItem, isResult, ?_⟩
          constructor
          · intro same
            omega
          · intro all
            have some := all head (List.mem_cons_self ..)
            rw [isHead] at some
            cases some
      | some value =>
          have ofHead : (result head).isSome := isHead ▸ rfl
          rw [List.filterMap_cons_some isHead] at isFound
          cases index with
          | zero =>
              cases isFound
              refine ⟨0, head, Nat.le_refl _, rfl, isHead, fun _ => ?_, fun _ => rfl⟩
              exact List.forall_mem_singleton.mpr ofHead
          | succ index =>
              obtain ⟨own, item, le, isItem, isResult, unchanged⟩ := ih isFound
              refine ⟨own + 1, item, Nat.succ_le_succ le, isItem, isResult, ?_⟩
              rw [Nat.succ_inj, unchanged, List.take_succ_cons, List.forall_mem_cons]
              exact ⟨fun all => ⟨ofHead, all⟩, And.right⟩

/-! ## Declaring functions -/

namespace SymbolTable

/-- No two declared functions have the same name and parameters. -/
def Distinct (table : SymbolTable) : Prop :=
  (table.declared.map fun entry => (entry.1, entry.2.params)).Nodup

private theorem declareFunction_eq_ok {table after : SymbolTable} {name : String}
    {signature : Signature} (declares : table.declareFunction name signature = .ok after) :
    after.declared = table.declared ++ [(name, signature)] ∧
      (name, signature.params) ∉ table.declared.map fun entry => (entry.1, entry.2.params) := by
  unfold declareFunction at declares
  split at declares
  · cases declares
  · next isNew =>
      cases declares
      refine ⟨rfl, fun member => isNew ?_⟩
      obtain ⟨entry, listed, same⟩ := List.mem_map.mp member
      refine List.any_eq_true.mpr ⟨entry, listed, ?_⟩
      obtain ⟨sameName, sameParams⟩ := Prod.mk.inj same
      simp only [sameName, sameParams, beq_self_eq_true, Bool.and_self]

private theorem Distinct.declareFunction {table after : SymbolTable} {name : String}
    {signature : Signature} (distinct : table.Distinct)
    (declares : table.declareFunction name signature = .ok after) : after.Distinct := by
  obtain ⟨isAfter, isNew⟩ := declareFunction_eq_ok declares
  unfold Distinct
  rw [isAfter, List.map_append, List.map_singleton]
  exact List.Nodup.append distinct (List.nodup_singleton _)
    (List.disjoint_singleton.mpr isNew)

/-- A name with a signature is declared at one position only. -/
theorem Distinct.eq_of_getElem? {table : SymbolTable} (distinct : table.Distinct)
    {index other : Nat} {entry : String × Signature} (atIndex : table.declared[index]? = some entry)
    (atOther : table.declared[other]? = some entry) : index = other := by
  have there : index < (table.declared.map fun entry => (entry.1, entry.2.params)).length := by
    rw [List.length_map]
    exact (List.getElem?_eq_some_iff.mp atIndex).1
  refine (List.getElem?_inj there distinct).mp ?_
  rw [List.getElem?_map, List.getElem?_map, atIndex, atOther]

end SymbolTable

/-- If a call runs a function of the package, it has the name and the signature of the declared
function that its number stands for. -/
def CallableRef.Listed (callable : CallableRef) (table : SymbolTable) : Prop :=
  ∀ {index}, callable.callee = .localFunction index →
    table.declared[index]? = some (callable.name, callable.signature)

namespace SymbolTable

variable (table : SymbolTable)

private theorem listed_selectNative {name : String} {natives : List Native} {args : List ValueType}
    {origin : BindingOrigin} :
    Compiles (selectNative name natives args origin) (·.Listed table) := by
  unfold selectNative
  refine Outcome.bind (compiles_selectOverload ..) fun index _ => ?_
  split
  · exact fun isLocal => nomatch isLocal
  · rfl

private theorem listed_resolveCallable (name : String) (args : List ValueType) :
    Compiles (table.resolveCallable name args) (·.Listed table) := by
  unfold resolveCallable
  cases isDeclared : table.declared.zipIdx.filter fun entry => entry.1.1 == name with
  | nil =>
      dsimp only
      split
      · rfl
      · split
        · exact table.listed_selectNative
        · exact table.listed_selectNative
        · rfl
  | cons first rest =>
      refine Outcome.bind (compiles_selectOverload ..) fun pick _ => ?_
      split
      · next signature index picked =>
          rintro _ ⟨⟩
          have member := List.mem_of_getElem? picked
          rw [← isDeclared] at member
          obtain ⟨listed, sameName⟩ := List.mem_filter.mp member
          cases beq_iff_eq.mp sameName
          exact List.mk_mem_zipIdx_iff_getElem?.mp listed
      · rfl

/-- The compiled body of a function with its signature, if it compiles. -/
def body? (entry : FunctionDecl × Signature) : Option FunctionBody :=
  (entry.1.compile table entry.2).toOption

private theorem named_of_body? {entry : FunctionDecl × Signature} {body : FunctionBody}
    (isBody : table.body? entry = some body) : (body.name, body.signature) =
      (entry.1.name, entry.2) := by
  have compiled : Outcome (entry.1.compile table entry.2)
      (fun body => (body.name, body.signature) = (entry.1.name, entry.2)) fun _ => True := by
    unfold FunctionDecl.compile
    refine Outcome.bind (.trivial _) fun body _ => ?_
    split
    · exact trivial
    · rfl
  rw [eq_ok_of_toOption isBody] at compiled
  exact compiled

end SymbolTable

/-! ## Packages -/

namespace PackageDecl

/-- Functions with a good signature, in the order in which they are declared. -/
structure Signs (functions : List FunctionDecl)
    (found : SymbolTable × List (FunctionDecl × Signature) × List Diagnostic) : Prop where
  sublist : (found.2.1.map Prod.fst).Sublist functions
  listed : found.1.declared = found.2.1.map fun entry => (entry.1.name, entry.2)
  distinct : found.1.Distinct

private theorem signs_declareFunctions {table : SymbolTable} (none : table.declared = [])
    (functions : List FunctionDecl) : Signs functions (declareFunctions table functions) := by
  induction functions using List.reverseRecOn with
  | nil =>
      refine ⟨.slnil, none, ?_⟩
      unfold SymbolTable.Distinct declareFunctions
      rw [List.foldl_nil, none]
      exact List.nodup_nil
  | append_singleton earlier last ih =>
      unfold declareFunctions at ih ⊢
      rw [List.foldl_concat]
      set found := earlier.foldl _
        ((table, [], []) : SymbolTable × List (FunctionDecl × Signature) × List Diagnostic)
      have skipped := ih.sublist.trans (List.sublist_append_left earlier [last])
      dsimp only
      split
      · exact ⟨skipped, ih.listed, ih.distinct⟩
      · next signature isSignature =>
          split
          · exact ⟨skipped, ih.listed, ih.distinct⟩
          · next after declares =>
              refine ⟨?_, ?_, ih.distinct.declareFunction declares⟩
              · rw [List.map_append]
                exact ih.sublist.append (.refl _)
              · rw [(SymbolTable.declareFunction_eq_ok declares).1, ih.listed, List.map_append]
                rfl

private theorem compileFunctions_eq (table : SymbolTable)
    (functions : List (FunctionDecl × Signature)) :
    (compileFunctions table functions).1 = functions.filterMap table.body? := by
  induction functions using List.reverseRecOn with
  | nil => rfl
  | append_singleton earlier last ih =>
      obtain ⟨function, signature⟩ := last
      unfold compileFunctions at ih ⊢
      rw [List.foldl_concat, List.filterMap_append, ← ih]
      set compiled := earlier.foldl _ (([], []) : List FunctionBody × List Diagnostic)
      dsimp only [List.filterMap_cons, List.filterMap_nil, SymbolTable.body?]
      split
      · next isBody =>
          rw [isBody]
          rfl
      · next isError =>
          rw [isError]
          exact (List.append_nil _).symm

/-- The functions of a package that calls can mean. -/
def signed (declared : PackageDecl) (catalog : Catalog) : List (FunctionDecl × Signature) :=
  (declareFunctions (declared.imported catalog) declared.functions).2.1

/-- The functions that calls can mean are declared ones with a good signature, in their order. -/
theorem signs_compile (declared : PackageDecl) (catalog : Catalog) :
    Signs declared.functions
      ((declared.compile catalog).1.scope.table, declared.signed catalog, []) := by
  have signs := signs_declareFunctions (declared.extends_imported catalog).declared
    declared.functions
  exact ⟨signs.sublist, signs.listed, signs.distinct⟩

private theorem functions_compile (declared : PackageDecl) (catalog : Catalog) :
    (declared.compile catalog).1.scope.functions.functions =
      (declared.signed catalog).filterMap (declared.compile catalog).1.scope.table.body? :=
  compileFunctions_eq _ _

/-- All functions that calls can mean compile, up to a number. -/
def CompilesTo (declared : PackageDecl) (catalog : Catalog) (index : Nat) : Prop :=
  ∀ entry ∈ (declared.signed catalog).take (index + 1),
    ((declared.compile catalog).1.scope.table.body? entry).isSome

variable (declared : PackageDecl) (catalog : Catalog) {index : Nat} {body : FunctionBody}

/-- The function that is stored under a number has been declared under that number or a later one;
under that number exactly as long as all functions compile up to it. -/
theorem declared_of_stored
    (stored : (declared.compile catalog).1.scope.functions.functions[index]? = some body) :
    ∃ own entry, index ≤ own ∧ (declared.signed catalog)[own]? = some entry ∧
      (declared.compile catalog).1.scope.table.body? entry = some body ∧
      (declared.compile catalog).1.scope.table.declared[own]? = some (body.name, body.signature) ∧
      (own = index ↔ declared.CompilesTo catalog index) := by
  rw [functions_compile] at stored
  obtain ⟨own, entry, le, isEntry, isBody, unchanged⟩ := exists_of_getElem?_filterMap _ stored
  refine ⟨own, entry, le, isEntry, isBody, ?_, unchanged⟩
  rw [(declared.signs_compile catalog).listed, List.getElem?_map, isEntry,
    SymbolTable.named_of_body? _ isBody]
  rfl

/-- **What local functions are numbered by.** The functions of a package, in the order in which they
are declared and without those that are refused, are what calls refer to by number. What is stored
under a number is the compiled body of the function with this number exactly as long as all
functions up to it compile, and then a call of this number runs the function that it was resolved
to, by name and signature; behind one that does not compile, it runs another one. -/
theorem numbered_iff_compile
    (stored : (declared.compile catalog).1.scope.functions.functions[index]? = some body) :
    ((declared.signed catalog).map Prod.fst).Sublist declared.functions ∧
    (declared.compile catalog).1.scope.table.declared =
      (declared.signed catalog).map (fun entry => (entry.1.name, entry.2)) ∧
    ((∃ entry, (declared.signed catalog)[index]? = some entry ∧
        entry.1.compile (declared.compile catalog).1.scope.table entry.2 = .ok body) ↔
      declared.CompilesTo catalog index) ∧
    ∀ {name args callable},
      (declared.compile catalog).1.scope.table.resolveCallable name args = .ok callable →
      callable.callee = .localFunction index →
        ((callable.name = body.name ∧ callable.signature = body.signature) ↔
          declared.CompilesTo catalog index) := by
  have signs := declared.signs_compile catalog
  obtain ⟨own, entry, -, isEntry, isBody, isDeclared, unchanged⟩ :=
    declared.declared_of_stored catalog stored
  have here : ∀ {named}, (declared.compile catalog).1.scope.table.declared[index]? = some named →
      ((body.name, body.signature) = named ↔ declared.CompilesTo catalog index) := by
    intro named atIndex
    rw [← unchanged]
    constructor
    · rintro rfl
      exact signs.distinct.eq_of_getElem? isDeclared atIndex
    · rintro rfl
      exact Option.some.inj (isDeclared.symm.trans atIndex)
  refine ⟨signs.sublist, signs.listed, ⟨?_, fun all => ?_⟩, fun resolves isLocal => ?_⟩
  · rintro ⟨found, atIndex, compiles⟩
    have isFound : (declared.compile catalog).1.scope.table.body? found = some body := by
      rw [SymbolTable.body?, compiles]
      rfl
    refine (here ?_).mp (SymbolTable.named_of_body? _ isFound)
    rw [signs.listed, List.getElem?_map, atIndex]
    rfl
  · cases unchanged.mpr all
    exact ⟨entry, isEntry, eq_ok_of_toOption isBody⟩
  · have atIndex := ((SymbolTable.listed_resolveCallable ..).of_ok resolves) isLocal
    rw [← here atIndex, Prod.mk.injEq]
    exact and_congr eq_comm eq_comm

/-- In a package without errors, all functions compile. -/
theorem compilesTo_of_clean (clean : hasErrors (declared.compile catalog).2 = false) (index : Nat) :
    declared.CompilesTo catalog index := by
  have enough := (complete_compile clean).declared
  rw [(declared.signs_compile catalog).listed, List.length_map, functions_compile] at enough
  have all := List.filterMap_length_eq_length.mp
    (Nat.le_antisymm (List.length_filterMap_le ..) enough)
  exact fun entry member => all entry (List.mem_of_mem_take member)

end PackageDecl

/-! ## Functions in front of others -/

namespace Constants

/-- A function without parameters. -/
def constant (name : String) (body : Term) : FunctionDecl :=
  { name, params := [], returnType := "int", body }

/-- The function that yields one. -/
def one : FunctionDecl := constant "one" (.literal (.int 1))

/-- The function that yields two. -/
def two : FunctionDecl := constant "two" (.literal (.int 2))

/-- A function that refers to what there is not. -/
def broken : FunctionDecl := constant "broken" (.name "missing")

/-- The scope of a package of functions. -/
def scope (functions : List FunctionDecl) : PackageScope :=
  (PackageDecl.compile { name := "app", functions } ⟨∅⟩).1.scope

/-- Evaluation in that scope. -/
def evaluation (functions : List FunctionDecl) : Evaluation :=
  { catalog := ⟨∅⟩, functions := (scope functions).functions }

/-- In front of a function that does not compile, calls run the function that they mean. -/
theorem two_numbered :
    ∃ body, (scope [one, two, broken]).functions.functions[1]? = some body ∧
    ∃ callable, (scope [one, two, broken]).table.resolveCallable "two" [] = .ok callable ∧
      callable.callee = .localFunction 1 ∧
      callable.name = body.name ∧ callable.signature = body.signature := by
  let declared : PackageDecl := { name := "app", functions := [one, two, broken] }
  obtain ⟨body, stored⟩ := Option.isSome_iff_exists.mp
    (by decide +kernel : (scope [one, two, broken]).functions.functions[1]?.isSome = true)
  have resolves : (scope [one, two, broken]).table.resolveCallable "two" [] =
      .ok ⟨"two", .declared, ⟨[], .int⟩, .localFunction 1⟩ :=
    eq_ok_of_toOption (by decide +kernel)
  have compiles : declared.CompilesTo ⟨∅⟩ 1 := by
    unfold PackageDecl.CompilesTo
    decide +kernel
  obtain ⟨-, -, -, calls⟩ := declared.numbered_iff_compile ⟨∅⟩ stored
  exact ⟨body, stored, _, resolves, rfl, (calls resolves rfl).mpr compiles⟩

/-- Behind a function that does not compile, a call of one function runs the next one, and yields
its value. -/
theorem one_runs_two :
    ∃ callable body, (scope [broken, one, two]).table.resolveCallable "one" [] = .ok callable ∧
      callable.callee = .localFunction 1 ∧
      (scope [broken, one, two]).table.declared[1]? = some (callable.name, callable.signature) ∧
      (scope [broken, one, two]).functions.functions[1]? = some body ∧
      callable.name = "one" ∧ body.name = "two" ∧
      (((evaluation [broken, one, two]).eval {} [] (.call "one" callable.callee [])).run
        ∅).1.toOption = some (.int 2) := by
  have resolves : (scope [broken, one, two]).table.resolveCallable "one" [] =
      .ok ⟨"one", .declared, ⟨[], .int⟩, .localFunction 1⟩ :=
    eq_ok_of_toOption (by decide +kernel)
  have named : (scope [broken, one, two]).functions.functions[1]?.map FunctionBody.name =
      some "two" := by
    decide +kernel
  obtain ⟨body, stored, isName⟩ := Option.map_eq_some_iff.mp named
  exact ⟨_, body, resolves, rfl, by decide +kernel, stored, rfl, isName, by decide +kernel⟩

end Constants

end Rete
