/-
The properties that parameters on the command line are typed by.

The command line looks for them in the query as it is written, with aliases of its own making: `belowTarget` and
`joinPaths` know nothing of scopes and alias tables. Of a query that resolves they say what its naming does
(`statement_agrees`), so a parameter is typed by a property that it really is compared with (`parameterPaths_resolved`).
-/
import EntitySearch.CommandLine.Parameters
import EntitySearch.Proofs.Expansion
import EntitySearch.Proofs.Resolve.Compared
import EntitySearch.Proofs.Resolve.Session
import Mathlib.Data.List.Induction

namespace EntitySearch.CommandLine

/-! ## First entries -/

theorem firstOnly_snoc (entries : NamedPaths) (name : String) (path : List String) :
    firstOnly (entries ++ [(name, path)]) =
      if ((firstOnly entries).lookup name).isSome then firstOnly entries
      else firstOnly entries ++ [(name, path)] := by
  rw [firstOnly, List.foldl_append]
  rfl

theorem lookup_firstOnly (entries : NamedPaths) (name : String) :
    (firstOnly entries).lookup name = entries.lookup name := by
  induction entries using List.reverseRecOn with
  | nil => rfl
  | append_singleton entries entry ih =>
    obtain ⟨other, path⟩ := entry
    rw [firstOnly_snoc, lookup_snoc]
    split
    · rename_i there
      by_cases same : name = other
      · subst same
        obtain ⟨first, hfirst⟩ := Option.isSome_iff_exists.1 there
        rw [← ih, hfirst, Option.some_or]
      · rw [if_neg same, Option.or_none, ih]
    · rw [lookup_snoc, ih]

/-- an entry is kept if it is the first for its name, and only then -/
theorem mem_firstOnly {entries : NamedPaths} {name : String} {path : List String} :
    (name, path) ∈ firstOnly entries ↔ entries.lookup name = some path := by
  induction entries using List.reverseRecOn with
  | nil => simp [firstOnly]
  | append_singleton entries entry ih =>
    obtain ⟨other, last⟩ := entry
    rw [firstOnly_snoc, lookup_firstOnly, lookup_snoc]
    split
    · rename_i there
      rw [ih]
      by_cases same : name = other
      · subst same
        obtain ⟨first, hfirst⟩ := Option.isSome_iff_exists.1 there
        rw [hfirst, Option.some_or]
      · rw [if_neg same, Option.or_none]
    · rename_i free
      rw [List.mem_append, ih, List.mem_singleton, Prod.mk.injEq]
      by_cases same : name = other
      · subst same
        rw [Option.not_isSome_iff_eq_none.1 free]
        simp [eq_comm]
      · simp [same]

/-! ## Comparisons -/

mutual

/-- what is looked through are the operands that are compared -/
theorem mem_compared {a b : Operand} : ∀ w : Condition Operand,
    (a, b) ∈ w.compared ↔ ∃ others, (a, others) ∈ comparisons w ∧ b ∈ others
  | .and cs => mem_comparedIn cs
  | .or cs => mem_comparedIn cs
  | .not w => mem_compared w
  | .compare r left right => by
    simp [Condition.compared, comparisons, or_and_right, exists_or, and_assoc]
  | .between operand lower upper negated => by
    simp [Condition.compared, comparisons, and_or_left, and_assoc]
  | .among operand values negated => by
    simp [Condition.compared, comparisons, eq_comm, and_comm]
  | .like .. => by simp [Condition.compared, comparisons]
  | .isNull .. => by simp [Condition.compared, comparisons]

theorem mem_comparedIn {a b : Operand} : ∀ ws : List (Condition Operand),
    (a, b) ∈ Condition.comparedIn ws ↔ ∃ others, (a, others) ∈ comparisonsFromLast ws ∧ b ∈ others
  | [] => by simp [Condition.comparedIn, comparisonsFromLast]
  | w :: rest => by
    rw [Condition.comparedIn, List.mem_append, mem_compared w, mem_comparedIn rest]
    simp only [comparisonsFromLast, List.mem_append, or_and_right, exists_or]
    exact or_comm

end

theorem mem_parameterNames {operands : List Operand} {name : String} :
    name ∈ parameterNames operands ↔ .named name ∈ operands := by
  rw [parameterNames, List.mem_filterMap]
  constructor
  · rintro ⟨o, ho, found⟩
    split at found <;> cases found
    exact ho
  · exact fun h => ⟨_, h, rfl⟩

theorem mem_comparedWith {roots : List String} {joins : NamedPaths} {a : Operand} {others : List Operand}
    {name : String} {path : List String} : (name, path) ∈ comparedWith roots joins (a, others) ↔
      ∃ e, a = .path e ∧ .named name ∈ others ∧ belowTarget roots joins e.segments = some path := by
  cases a with
  | path e =>
    cases hb : belowTarget roots joins e.segments with
    | none => simp [comparedWith, hb]
    | some below => simp [comparedWith, hb, mem_parameterNames]
  | _ => simp [comparedWith]

/-- the names of the sources of a query -/
def roots (q : Statement) : List String := q.sources.map Source.reference

/-- the parameters of a query that are compared with a property, each with its path, as often as they are -/
def comparedPaths (q : Statement) : NamedPaths :=
  match q.filter with
  | none => []
  | some w => (comparisons w).flatMap (comparedWith (roots q) (joinPaths (roots q) q.joins))

theorem parameterPaths_eq (q : Statement) : parameterPaths q = firstOnly (comparedPaths q) := by
  unfold parameterPaths comparedPaths
  cases q.filter <;> rfl

theorem mem_comparedPaths {q : Statement} {name : String} {path : List String} :
    (name, path) ∈ comparedPaths q ↔ ∃ w ∈ q.filter, ∃ e, (.path e, .named name) ∈ w.compared ∧
      belowTarget (roots q) (joinPaths (roots q) q.joins) e.segments = some path := by
  unfold comparedPaths
  cases q.filter with
  | none => simp
  | some w =>
    simp only [List.mem_flatMap, Prod.exists, mem_comparedWith, Option.mem_def, Option.some.injEq, exists_eq_left',
      mem_compared]
    constructor
    · rintro ⟨_, others, listed, e, rfl, named, below⟩
      exact ⟨e, ⟨others, listed, named⟩, below⟩
    · rintro ⟨e, ⟨others, listed, named⟩, below⟩
      exact ⟨_, others, listed, e, rfl, named, below⟩

/-! ## Names -/

/-- the sources and the joins say of every name what a naming does -/
def Agrees (roots : List String) (joins : NamedPaths) (naming : Naming) : Prop :=
  ∀ name, naming.lookup name = if roots.contains name then some [] else joins.lookup name

/-- where a reference leads is what the naming expands it to -/
theorem Agrees.belowTarget_eq {roots : List String} {joins : NamedPaths} {naming : Naming}
    (h : Agrees roots joins naming) {segments : List String} (named : naming.expand segments ≠ []) :
    belowTarget roots joins segments = some (naming.expand segments) := by
  cases segments with
  | nil => exact absurd rfl named
  | cons first rest =>
    simp only [Naming.expand, h first] at named ⊢
    rw [belowTarget]
    revert named
    cases roots.contains first with
    | true => simp
    | false => cases joins.lookup first <;> simp

theorem sources_lookup (sources : List Source) (naming : Naming) (name : String) :
    (sources.foldl (fun naming source => naming.add source.reference []) naming).lookup name =
      (naming.lookup name).or (if (sources.map Source.reference).contains name then some [] else none) := by
  induction sources generalizing naming with
  | nil => simp
  | cons source rest ih =>
    rw [List.foldl_cons, ih, Naming.add, lookup_snoc, Option.or_assoc, List.map_cons, List.contains_cons]
    by_cases h : name = source.reference <;> simp [h]

section

variable {c : Catalog} {s s' : Scope} {walks : List Walk} {naming : Naming}

/-- the path of a join that is taken has a name -/
theorem below_of_addJoin {name : String} {p : Path} (h : s.addJoin name p = (.ok (), s')) : p.below ≠ [] := by
  unfold Scope.addJoin at h
  split at h
  · rename_i object
    have steps : p.steps ≠ [] := fun none_behind => by simp [Path.endsInObject, none_behind] at object
    simp [Path.below, Path.properties, steps]
  · cases h

/-- **Joins that resolve are read as the resolver reads them**: a name that is taken keeps its meaning, and there is no
join to nothing. -/
theorem joins_agree {roots : List String} {joins : List Join} (h : s.Walked c walks naming)
    (agrees : Agrees roots [] naming) (hs : s.addJoins c joins = .ok s') :
    ∃ naming', s'.Walked c walks naming' ∧ Agrees roots (joinPaths roots joins) naming' := by
  refine foldlM_follows (R := fun found s => ∃ naming, s.Walked c walks naming ∧ Agrees roots found naming)
    (fun found s join s' ⟨naming, walked, agrees⟩ hs => ?_) ⟨naming, h, agrees⟩ hs
  have joined : s.addJoins c [join] = .ok s' := by
    rw [Scope.addJoins, List.foldlM_cons, hs]
    rfl
  refine ⟨_, Scope.addJoins_follows walked joined, fun name => ?_⟩
  obtain ⟨path, hpath, hs⟩ := bind_eq_ok.1 hs
  have named : naming.expand join.path.segments ≠ [] := by
    rw [← Scope.resolvePath_below walked.1 hpath]
    exact below_of_addJoin (Scope.succeeded_ok hs)
  rw [List.foldl_cons, List.foldl_nil, agrees.belowTarget_eq named, Naming.add, lookup_snoc,
    lookup_snoc, agrees name]
  cases roots.contains name <;> rfl

/-- the first source names the target, and is the entity that the command line takes for it -/
theorem addSource_target {calledBy : String} {name : Option String} (free : s.target = none)
    (h : s.addSource c calledBy name = (.ok (), s')) :
    ∃ target, s'.target = some target ∧ c.resolve calledBy = some target.entity := by
  have step := s.addSource_step c calledBy name
  rw [h] at step
  cases step with
  | first known _ _ => exact ⟨_, rfl, known⟩
  | again _ _ ht => cases free.symm.trans ht

theorem addSources_target {sources : List Source} {target : Target} (ht : s.target = some target)
    (hs : s.addSources c sources = .ok s') : s'.target = some target :=
  foldlM_follows (R := fun (_ : Unit) s => s.target = some target) (g := fun u _ => u)
    (fun _ s source s' ht hs => by
      have kept := (Scope.addSource_extends c s source.entity source.name).target ht
      rwa [Scope.succeeded_ok hs] at kept) (c := ()) ht hs

end

/-- the entity that the command line takes for the target of a query -/
def targetEntity (c : Catalog) (q : Statement) : Option String :=
  q.sources.head?.bind fun source => c.resolve source.entity

section

variable {c : Catalog} {q : Statement} {parameters : Parameters} {s : ResolvedStatement}

theorem targetEntity_eq (resolved : q.resolve c parameters = .ok s) : targetEntity c q = some s.target.entity := by
  obtain ⟨front, back, steps⟩ := Statement.resolve_iff.1 resolved
  have target : front.target = some s.target :=
    (Scope.addJoins_keeps steps.joins).2.symm.trans (congrArg Scope.target steps.scope)
  have sources := steps.sources
  rw [targetEntity]
  cases hq : q.sources with
  | nil =>
    rw [hq] at sources
    cases sources
    cases target
  | cons first rest =>
    rw [hq, Scope.addSources, List.foldlM_cons] at sources
    obtain ⟨next, hnext, sources⟩ := bind_eq_ok.1 sources
    obtain ⟨found, hfound, resolves⟩ := addSource_target rfl (Scope.succeeded_ok hnext)
    cases target.symm.trans (addSources_target hfound sources)
    exact resolves

/-- **The aliases of the command line are those of the query**, if the query resolves. -/
theorem statement_agrees (resolved : q.resolve c parameters = .ok s) :
    Agrees (roots q) (joinPaths (roots q) q.joins) q.naming := by
  obtain ⟨front, back, steps⟩ := Statement.resolve_iff.1 resolved
  have start : (Scope.initial.enter .sources).Walked c [.sources] [] := ⟨(Scope.initial_follows c).enter _, rfl⟩
  have sources : Agrees (roots q) [] (q.sources.foldl (fun naming source => naming.add source.reference []) []) := by
    intro name
    rw [sources_lookup]
    rfl
  obtain ⟨naming, ⟨walked, -⟩, agrees⟩ :=
    joins_agree (Scope.addSources_follows start steps.sources) sources steps.joins
  have follows := (Statement.resolve_ok resolved).follows
  intro name
  rw [← agrees name, follows.reads name, walked.reads name, ← steps.scope]
  rfl

theorem belowTarget_resolved (resolved : q.resolve c parameters = .ok s) {e : PathExpr} {p : Path}
    (hp : s.scope.resolveProperty c e = .ok p) :
    belowTarget (roots q) (joinPaths (roots q) q.joins) e.segments = some (q.naming.expand e.segments) := by
  have follows := (Statement.resolve_ok resolved).follows
  obtain ⟨-, -, steps⟩ := Scope.resolveProperty_known follows.sound hp
  refine (statement_agrees resolved).belowTarget_eq ?_
  rw [← Scope.resolveProperty_below follows hp]
  simp [Path.below, Path.properties, steps]

/-! ## Parameters -/

/-- what is compared in WHERE is so when it is resolved -/
theorem compared_resolved (resolved : q.resolve c parameters = .ok s) {w : Condition Operand} (hw : w ∈ q.filter)
    {a b : Operand} (h : (a, b) ∈ w.compared) :
    ∃ d ∈ s.filter, ∃ a' b', (a', b') ∈ d.compared ∧ s.scope.resolveOperand c parameters .filter a = .ok a' ∧
      s.scope.resolveOperand c parameters .filter b = .ok b' := by
  have filter := (Statement.resolve_ok resolved).filter
  rw [Option.mem_def.1 hw] at filter
  obtain ⟨d, hd, filter⟩ := bind_eq_ok.1 filter
  have pairs := Condition.traverse_compared w hd
  obtain ⟨⟨a', b'⟩, hab, ha, hb⟩ := forall₂_right (List.Forall₂.flip pairs) _ h
  exact ⟨d, (Except.ok.inj filter).symm, a', b', hab, ha, hb⟩

/-- a reference that is compared leads to a property, and for the command line to the same -/
theorem reference_compared (resolved : q.resolve c parameters = .ok s) {w : Condition Operand} (hw : w ∈ q.filter)
    {e : PathExpr} {o : Operand} (h : (.path e, o) ∈ w.compared) :
    belowTarget (roots q) (joinPaths (roots q) q.joins) e.segments = some (q.naming.expand e.segments) ∧
      c.hasProperty s.target.entity (q.naming.expand e.segments) = true := by
  obtain ⟨d, -, a', b', -, ha, -⟩ := compared_resolved resolved hw h
  obtain ⟨p, hp, -⟩ := bind_eq_ok.1 ha
  have follows := (Statement.resolve_ok resolved).follows
  obtain ⟨-, testable⟩ := Scope.resolveProperty_testable follows s.scope_target rfl hp
  exact ⟨belowTarget_resolved resolved hp, testable.present⟩

/-- a property that a parameter is compared with, resolved -/
theorem comparison_resolved (resolved : q.resolve c parameters = .ok s) {w : Condition Operand} (hw : w ∈ q.filter)
    {e : PathExpr} {name : String} (h : (.path e, .named name) ∈ w.compared) :
    ∃ p v, s.scope.resolveProperty c e = .ok p ∧
      ∃ d ∈ s.filter, (.path p, .parameter name v) ∈ d.compared := by
  obtain ⟨d, hd, a', b', hab, ha, hb⟩ := compared_resolved resolved hw h
  obtain ⟨p, hp, ha⟩ := bind_eq_ok.1 ha
  cases ha
  rw [Scope.resolveOperand] at hb
  split at hb
  · cases hb
    exact ⟨p, _, hp, d, hd, hab⟩
  · cases hb

/-- a value is converted to the kind of the property by which its parameter is typed -/
theorem typedValue_property {entity : String} {targets : NamedPaths} {name : String} {path : List String} {d : Property}
    (ht : targets.lookup name = some path) (hd : c.property entity path = some d) (text : String) (v : Value) :
    typedValue c (some entity) targets name text = .ok v ↔ d.kind.convert text = .ok v := by
  have present : c.hasProperty entity path = true := by
    rw [Catalog.hasProperty, hd]
    rfl
  simp only [typedValue, ht, present, if_true, Catalog.convert, hd]
  cases d.kind.convert text <;> simp

/-- **The command line and the resolver agree on what a path means.** If a query resolves, every parameter that the
command line types is compared in WHERE with a property whose canonical names are those it is typed by; the target has
that property, and the parameter is converted to its kind. -/
theorem parameterPaths_resolved (resolved : q.resolve c parameters = .ok s) {name : String} {names : List String}
    (listed : (name, names) ∈ parameterPaths q) :
    (parameterPaths q).lookup name = some names ∧
    (∃ w ∈ s.filter, ∃ p v, (.path p, .parameter name v) ∈ w.compared ∧ s.aliases.canonical p = .ok names) ∧
    ∃ d, c.property s.target.entity names = some d ∧
      ∀ text v, typedValue c (targetEntity c q) (parameterPaths q) name text = .ok v ↔
        d.kind.convert text = .ok v := by
  rw [parameterPaths_eq, mem_firstOnly] at listed
  have only : (parameterPaths q).lookup name = some names := by rw [parameterPaths_eq, lookup_firstOnly, listed]
  obtain ⟨w, hw, e, compared, below⟩ := mem_comparedPaths.1 (mem_of_lookup listed)
  obtain ⟨p, v, hp, d, hd, pair⟩ := comparison_resolved resolved hw compared
  obtain rfl : names = q.naming.expand e.segments :=
    Option.some.inj (below.symm.trans (belowTarget_resolved resolved hp))
  have follows := (Statement.resolve_ok resolved).follows
  obtain ⟨⟨target, ht, sound⟩, -, steps⟩ := Scope.resolveProperty_known follows.sound hp
  cases ht
  obtain ⟨property, hproperty⟩ := Option.isSome_iff_exists.1 (sound.hasProperty steps)
  rw [Scope.resolveProperty_below follows hp] at hproperty
  refine ⟨only, ⟨d, hd, p, v, pair, ?_⟩, property, hproperty, fun text v => ?_⟩
  · rw [← Scope.resolveProperty_below follows hp]
    exact sound.canonical
  · rw [targetEntity_eq resolved]
    exact typedValue_property only hproperty text v

/-- The lowest altitude of hard hikes is typed by the altitude of their start, though the query speaks of a join. -/
theorem hardHikes_typed : ∃ s, hardHikes.resolve hikes [("low", .long 0)] = .ok s ∧
    ("low", ["start", "altitude"]) ∈ parameterPaths hardHikes ∧
    (parameterPaths hardHikes).lookup "low" = some ["start", "altitude"] ∧
    (∃ w ∈ s.filter, ∃ p v, (.path p, .parameter "low" v) ∈ w.compared ∧
      s.aliases.canonical p = .ok ["start", "altitude"]) ∧
    ∃ d, hikes.property s.target.entity ["start", "altitude"] = some d ∧
      ∀ text v, typedValue hikes (targetEntity hikes hardHikes) (parameterPaths hardHikes) "low" text = .ok v ↔
        d.kind.convert text = .ok v := by
  obtain ⟨s, hs⟩ := exists_of_isOk (show (hardHikes.resolve hikes [("low", .long 0)]).isOk = true by decide +kernel)
  have listed : ("low", ["start", "altitude"]) ∈ parameterPaths hardHikes := by decide +kernel
  exact ⟨s, hs, listed, parameterPaths_resolved hs listed⟩

end

end EntitySearch.CommandLine
