/-
Scopes put under their parents when they are opened.

A draft keeps its open scopes apart and puts each under the one below when it is closed. `Sprout` is built the other way:
there is one tree from the start, a scope is put into it when it is opened, and a cursor goes down to it and up again.
The tree is a `Rose`, whose nodes could have any number of children; what a Root or a Not may have is checked, not built
into it.

The two cannot be told apart (`Draft.log_sprout`). `Follows` sets them side by side: the tree of the one is what the
scopes of the other come to when they are put into each other (`Rose.nest`), and the cursor goes, at each scope, to the
place behind the children that it has had so far.
-/
import EntitySearch.Proofs.Predicate.Steps

namespace EntitySearch

/-! ## Trees of any shape -/

/-- what a node is, apart from its children -/
inductive NodeKind (Q : Type) where
  | root
  | and
  | or
  | not
  | leaf (test : Test) (aggregation : Option Aggregation) (query : Q)

namespace NodeKind

variable {Q : Type}

def label : NodeKind Q → String
  | .root => "Root"
  | .and => "And"
  | .or => "Or"
  | .not => "Not"
  | .leaf .. => "Leaf"

/-- a node that may have one child only -/
def isSingle : NodeKind Q → Bool
  | .root | .not => true
  | _ => false

/-- a node with `n` children may have one more -/
def takes (n : Nat) : NodeKind Q → Bool
  | .leaf .. => false
  | kind => !kind.isSingle || n == 0

end NodeKind

/-- a tree whose nodes have any number of children -/
inductive Rose (Q : Type) where
  | node (kind : NodeKind Q) (children : List (Rose Q))

namespace Rose

variable {Q : Type}

def children : Rose Q → List (Rose Q)
  | .node _ children => children

/-- the tree with one more child behind the others -/
def add : (t child : Rose Q) → Rose Q
  | .node kind children, child => .node kind (children ++ [child])

/-- the tree at the end of a way down, which says at each node which child is next -/
def subtree : List Nat → Rose Q → Option (Rose Q)
  | [], t => some t
  | i :: way, .node _ children => children[i]?.bind (subtree way)

/-- the tree with the one at the end of a way down changed -/
def change (f : Rose Q → Rose Q) : List Nat → Rose Q → Rose Q
  | [], t => f t
  | i :: way, .node kind children => .node kind (children.modify i (change f way))

/-- no node has more children than it may -/
inductive Narrow : Rose Q → Prop where
  | node {kind : NodeKind Q} {children : List (Rose Q)} (few : kind.isSingle = true → children.length ≤ 1)
      (all : ∀ child ∈ children, Narrow child) : Narrow (.node kind children)

end Rose

/-! ## A tree that grows -/

/-- a tree being built from the root, and the way down to the innermost open scope -/
structure Sprout (Q : Type) where
  tree : Rose Q
  cursor : List Nat

namespace Sprout

variable {Q : Type}

/-- the root alone -/
def initial : Sprout Q := ⟨.node .root [], []⟩

/-- puts a node under the one at the cursor; the tree, and the place of the new node among its siblings -/
def attach (t : Sprout Q) (kind : NodeKind Q) : Except QueryError (Rose Q × Nat) :=
  match t.tree.subtree t.cursor with
  | none => .error (.structural .noOpenScope)
  | some (.node parent children) =>
    if parent.takes children.length then .ok (t.tree.change (·.add (.node kind [])) t.cursor, children.length)
    else .error (.structural (.tooManyChildren parent.label))

/-- the node of a scope -/
def kindOf : Connective → NodeKind Q
  | .and => .and
  | .or => .or
  | .not => .not

/-- a scope is attached when it is opened, and the cursor moves to it; closing it moves the cursor up -/
def step (a : Draft.Step Q) (t : Sprout Q) : Except QueryError Unit × Sprout Q :=
  match a with
  | .push connective =>
    match t.attach (kindOf connective) with
    | .ok (tree, place) => (.ok (), ⟨tree, t.cursor ++ [place]⟩)
    | .error e => (.error e, t)
  | .leaf test aggregation query =>
    match t.attach (.leaf test aggregation query) with
    | .ok (tree, _) => (.ok (), { t with tree })
    | .error e => (.error e, t)
  | .pop =>
    if t.cursor.isEmpty then (.error (.structural .noOpenScope), t)
    else (.ok (), { t with cursor := t.cursor.dropLast })

def builder : Builder (Draft.Step Q) (Sprout Q) := ⟨step, fun t => t.cursor.length⟩

/-- the tree, if the cursor is back at the root -/
def finish (t : Sprout Q) : Except StructureError (Rose Q) :=
  if t.cursor.isEmpty then .ok t.tree else .error (.unclosedScopes t.cursor.length)

end Sprout

/-! ## Predicates as such trees -/

namespace Predicate

variable {Q : Type}

mutual

/-- the tree with its nodes and children told apart -/
def rose : Predicate Q → Rose Q
  | .root none => .node .root []
  | .root (some p) => .node .root [rose p]
  | .and children => .node .and (roses children)
  | .or children => .node .or (roses children)
  | .not none => .node .not []
  | .not (some p) => .node .not [rose p]
  | .leaf test aggregation query => .node (.leaf test aggregation query) []

def roses : List (Predicate Q) → List (Rose Q)
  | [] => []
  | p :: rest => rose p :: roses rest

end

end Predicate

namespace Rose

variable {Q : Type}

mutual

/-- the predicate of which a tree tells the nodes and children; of a Root or a Not the first child counts -/
def predicate : Rose Q → Predicate Q
  | .node .root children => .root (predicates children).head?
  | .node .and children => .and (predicates children)
  | .node .or children => .or (predicates children)
  | .node .not children => .not (predicates children).head?
  | .node (.leaf test aggregation query) _ => .leaf test aggregation query

def predicates : List (Rose Q) → List (Predicate Q)
  | [] => []
  | t :: rest => predicate t :: predicates rest

end

mutual

theorem predicate_rose : ∀ p : Predicate Q, p.rose.predicate = p
  | .root none => rfl
  | .root (some p) => by simp [Predicate.rose, predicate, predicates, predicate_rose p]
  | .and ps => by rw [Predicate.rose, predicate, predicates_roses ps]
  | .or ps => by rw [Predicate.rose, predicate, predicates_roses ps]
  | .not none => rfl
  | .not (some p) => by simp [Predicate.rose, predicate, predicates, predicate_rose p]
  | .leaf .. => rfl

theorem predicates_roses : ∀ ps : List (Predicate Q), predicates (Predicate.roses ps) = ps
  | [] => rfl
  | p :: rest => by rw [Predicate.roses, predicates, predicate_rose p, predicates_roses rest]

end

end Rose

namespace Predicate

variable {Q : Type}

/-- a predicate can be told from its tree -/
theorem rose_injective : Function.Injective (rose : Predicate Q → Rose Q) :=
  Function.LeftInverse.injective Rose.predicate_rose

mutual

/-- no Root and no Not of a predicate has two children -/
theorem rose_narrow : ∀ p : Predicate Q, p.rose.Narrow
  | .root none => .node (fun _ => Nat.zero_le 1) nofun
  | .root (some p) => .node (fun _ => Nat.le_refl 1) (by simpa using rose_narrow p)
  | .and ps => .node nofun (roses_narrow ps)
  | .or ps => .node nofun (roses_narrow ps)
  | .not none => .node (fun _ => Nat.zero_le 1) nofun
  | .not (some p) => .node (fun _ => Nat.le_refl 1) (by simpa using rose_narrow p)
  | .leaf .. => .node nofun nofun

theorem roses_narrow : ∀ ps : List (Predicate Q), ∀ t ∈ roses ps, t.Narrow
  | [] => nofun
  | p :: rest => List.forall_mem_cons.2 ⟨rose_narrow p, roses_narrow rest⟩

end

theorem roses_append (ps qs : List (Predicate Q)) : roses (ps ++ qs) = roses ps ++ roses qs := by
  induction ps with
  | nil => rfl
  | cons p rest ih => rw [List.cons_append, roses, ih, roses, List.cons_append]

/-- a predicate and its tree have room for the same, and are called the same -/
theorem rose_node (p : Predicate Q) : ∃ kind children, p.rose = .node kind children ∧
    kind.takes children.length = p.hasRoom ∧ kind.label = p.label := by
  cases p with
  | root c => cases c <;> exact ⟨_, _, rfl, rfl, rfl⟩
  | not c => cases c <;> exact ⟨_, _, rfl, rfl, rfl⟩
  | _ => exact ⟨_, _, rfl, rfl, rfl⟩

theorem rose_adopt {p child q : Predicate Q} (h : p.adopt child = .ok q) : q.rose = p.rose.add child.rose := by
  cases p with
  | root c =>
    cases c with
    | none => cases h; rfl
    | some _ => cases h
  | not c =>
    cases c with
    | none => cases h; rfl
    | some _ => cases h
  | and ps =>
    cases h
    simp only [rose, Rose.add, roses_append]
    rfl
  | or ps =>
    cases h
    simp only [rose, Rose.add, roses_append]
    rfl
  | leaf => cases h

end Predicate

/-! ## Trees put into each other -/

namespace Rose

variable {Q : Type}

theorem subtree_append (way way' : List Nat) (t : Rose Q) :
    t.subtree (way ++ way') = (t.subtree way).bind (subtree way') := by
  induction way generalizing t with
  | nil => rfl
  | cons i way ih =>
    obtain ⟨kind, children⟩ := t
    simp only [List.cons_append, subtree, Option.bind_assoc]
    cases children[i]? with
    | none => rfl
    | some child => exact ih child

theorem change_append (f : Rose Q → Rose Q) (way way' : List Nat) (t : Rose Q) :
    t.change f (way ++ way') = t.change (change f way') way := by
  induction way generalizing t with
  | nil => rfl
  | cons i way ih =>
    obtain ⟨kind, children⟩ := t
    simp only [List.cons_append, change]
    congr 2
    funext child
    exact ih child

theorem subtree_add (child t : Rose Q) : (t.add child).subtree [t.children.length] = some child := by
  obtain ⟨kind, children⟩ := t
  simp [add, subtree, Rose.children]

theorem change_add (f : Rose Q → Rose Q) (child t : Rose Q) :
    (t.add child).change f [t.children.length] = t.add (f child) := by
  obtain ⟨kind, children⟩ := t
  simp [add, change, Rose.children, List.modify_eq_take_drop]

/-- a tree put under the first of others, this one under the second, and so on -/
def nest (inner : Rose Q) : List (Rose Q) → Rose Q
  | [] => inner
  | t :: rest => nest (t.add inner) rest

/-- the way down to the innermost of nested trees, each of which is behind the children that the next one had -/
def way : List (Rose Q) → List Nat
  | [] => []
  | t :: rest => way rest ++ [t.children.length]

theorem length_way (below : List (Rose Q)) : (way below).length = below.length := by
  induction below with
  | nil => rfl
  | cons t rest ih => simp [way, ih]

theorem subtree_nest (inner : Rose Q) (below : List (Rose Q)) :
    (nest inner below).subtree (way below) = some inner := by
  induction below generalizing inner with
  | nil => rfl
  | cons t rest ih => rw [nest, way, subtree_append, ih, Option.bind_some, subtree_add]

theorem change_nest (f : Rose Q → Rose Q) (inner : Rose Q) (below : List (Rose Q)) :
    (nest inner below).change f (way below) = nest (f inner) below := by
  induction below generalizing inner f with
  | nil => rfl
  | cons t rest ih => rw [nest, way, change_append, ih, change_add, nest]

/-- nested trees are narrow if each is, and has room for the one that it takes -/
theorem nest_narrow {inner : Rose Q} {below : List (Rose Q)} (h : inner.Narrow)
    (room : ∀ t ∈ below, t.Narrow ∧ ∃ kind children, t = .node kind children ∧ kind.takes children.length = true) :
    (nest inner below).Narrow := by
  induction below generalizing inner with
  | nil => exact h
  | cons t rest ih =>
    rw [List.forall_mem_cons] at room
    obtain ⟨⟨narrow, kind, children, rfl, takes⟩, room⟩ := room
    refine ih ?_ room
    cases narrow with
    | node few all =>
      refine .node (fun single => ?_) ?_
      · have none_yet : children.length = 0 := by
          cases kind <;> simp_all [NodeKind.takes, NodeKind.isSingle]
        simp [none_yet]
      · exact List.forall_mem_append.2 ⟨all, List.forall_mem_singleton.2 h⟩

end Rose

/-! ## Side by side -/

namespace Sprout

variable {Q : Type}

/-- the tree is what the scopes of the draft come to, and the cursor is at the innermost of them -/
structure Shows (s : Draft Q) (t : Sprout Q) : Prop where
  tree : t.tree = .nest s.top.rose (s.below.map Predicate.rose)
  cursor : t.cursor = Rose.way (s.below.map Predicate.rose)
  roomy : s.Roomy

theorem shows_initial : Shows (Draft.initial : Draft Q) initial := ⟨rfl, rfl, Draft.initial_roomy⟩

variable {s : Draft Q} {t : Sprout Q}

theorem Shows.length_cursor (h : Shows s t) : t.cursor.length = s.depth := by
  rw [h.cursor, Rose.length_way, List.length_map, Draft.length_below]

/-- a node is attached at the cursor if the innermost scope has room -/
theorem Shows.attach_room (h : Shows s t) (room : s.top.hasRoom = true) (kind : NodeKind Q) :
    t.attach kind = .ok (.nest (s.top.rose.add (.node kind [])) (s.below.map Predicate.rose),
      s.top.rose.children.length) := by
  obtain ⟨parent, children, hnode, takes, -⟩ := s.top.rose_node
  rw [room] at takes
  simp only [attach, h.tree, h.cursor, Rose.subtree_nest, Rose.change_nest]
  simp only [hnode, takes, if_true, Rose.children]

theorem Shows.attach_full (h : Shows s t) (full : s.top.hasRoom = false) (kind : NodeKind Q) :
    t.attach kind = .error (.structural (.tooManyChildren s.top.label)) := by
  obtain ⟨parent, children, hnode, takes, label⟩ := s.top.rose_node
  rw [full] at takes
  simp only [attach, h.tree, h.cursor, Rose.subtree_nest]
  simp only [hnode, takes, label, Bool.false_eq_true, if_false]

theorem step_push {connective : Connective} {tree : Rose Q} {place : Nat}
    (attached : t.attach (kindOf connective) = .ok (tree, place)) :
    step (.push connective) t = (.ok (), ⟨tree, t.cursor ++ [place]⟩) := by
  simp only [step, attached]

theorem step_leaf {test : Test} {aggregation : Option Aggregation} {query : Q} {tree : Rose Q} {place : Nat}
    (attached : t.attach (.leaf test aggregation query) = .ok (tree, place)) :
    step (.leaf test aggregation query) t = (.ok (), { t with tree }) := by
  simp only [step, attached]

theorem Shows.push (h : Shows s t) (room : s.top.hasRoom = true) (connective : Connective) :
    ∃ t', step (.push connective) t = (.ok (), t') ∧ Shows { s with scopes := connective.scope :: s.scopes } t' := by
  have node : (connective.scope : Predicate Q).rose = .node (kindOf connective) [] := by cases connective <;> rfl
  refine ⟨_, step_push (h.attach_room room _), ?_, ?_, h.roomy.push room _⟩
  · show _ = Rose.nest (connective.scope : Predicate Q).rose _
    rw [Draft.below_push, List.map_cons, node]
    rfl
  · rw [Draft.below_push, List.map_cons, Rose.way, ← h.cursor]

theorem Shows.leaf (h : Shows s t) (room : s.top.hasRoom = true) {test : Test} {aggregation : Option Aggregation}
    {query : Q} {p : Predicate Q} (adopted : s.top.adopt (.leaf test aggregation query) = .ok p) :
    ∃ t', step (.leaf test aggregation query) t = (.ok (), t') ∧ Shows (s.withTop p) t' := by
  refine ⟨_, step_leaf (h.attach_room room _), ?_, ?_, h.roomy.withTop p⟩
  · rw [Draft.top_withTop, Draft.below_withTop, Predicate.rose_adopt adopted]
    rfl
  · rw [Draft.below_withTop, ← h.cursor]

/-- the closed scope is in its place already -/
theorem Shows.pop {closed p : Predicate Q} {rest : List (Predicate Q)} {base : Predicate Q}
    (h : Shows ⟨closed :: rest, base⟩ t) (adopted : (⟨rest, base⟩ : Draft Q).top.adopt closed = .ok p) :
    ∃ t', step .pop t = (.ok (), t') ∧ Shows ((⟨rest, base⟩ : Draft Q).withTop p) t' := by
  have below : (⟨closed :: rest, base⟩ : Draft Q).below = _ := Draft.below_push closed ⟨rest, base⟩
  have tree := h.tree
  have cursor := h.cursor
  rw [below, List.map_cons] at tree cursor
  have opened : t.cursor.isEmpty = false := by simp [cursor, Rose.way]
  refine ⟨⟨t.tree, t.cursor.dropLast⟩, by simp [step, opened], ?_, ?_, h.roomy.rest.withTop p⟩
  · rw [Draft.top_withTop, Draft.below_withTop, Predicate.rose_adopt adopted]
    exact tree
  · rw [Draft.below_withTop, cursor, Rose.way, List.dropLast_concat]

theorem Shows.step_full (h : Shows s t) (full : s.top.hasRoom = false) (a : Draft.Step Q) (opens : a ≠ .pop) :
    step a t = (.error (.structural (.tooManyChildren s.top.label)), t) := by
  cases a with
  | push connective => simp only [step, h.attach_full full]
  | pop => exact absurd rfl opens
  | leaf test aggregation query => simp only [step, h.attach_full full]

theorem Shows.pop_none {base : Predicate Q} (h : Shows ⟨[], base⟩ t) :
    step .pop t = (.error (.structural .noOpenScope), t) := by
  have root : t.cursor = [] := h.cursor
  simp [step, root]

/-- **One step** ends the same way for both, and leaves them side by side. -/
theorem Shows.step (h : Shows s t) (a : Draft.Step Q) :
    (Draft.builder.step a s).1 = (Sprout.step a t).1 ∧ Shows (Draft.builder.step a s).2 (Sprout.step a t).2 := by
  cases a with
  | pop =>
    obtain ⟨scopes, base⟩ := s
    cases scopes with
    | nil =>
      rw [Draft.step_pop_none, h.pop_none]
      exact ⟨rfl, h⟩
    | cons closed rest =>
      obtain ⟨p, adopted, done⟩ := Draft.step_pop h.roomy
      obtain ⟨t', done', shows⟩ := h.pop adopted
      rw [done, done']
      exact ⟨rfl, shows⟩
  | push connective =>
    cases room : s.top.hasRoom with
    | false =>
      rw [Draft.step_full room (.push connective) nofun, h.step_full room (.push connective) nofun]
      exact ⟨rfl, h⟩
    | true =>
      obtain ⟨t', done', shows⟩ := h.push room connective
      rw [Draft.step_push room, done']
      exact ⟨rfl, shows⟩
  | leaf test aggregation query =>
    cases room : s.top.hasRoom with
    | false =>
      rw [Draft.step_full room (.leaf test aggregation query) nofun,
        h.step_full room (.leaf test aggregation query) nofun]
      exact ⟨rfl, h⟩
    | true =>
      obtain ⟨p, adopted, done⟩ := Draft.step_leaf room test aggregation query
      obtain ⟨t', done', shows⟩ := h.leaf room adopted
      rw [done, done']
      exact ⟨rfl, shows⟩

theorem follows : Builder.Follows Draft.builder (builder : Builder (Draft.Step Q) (Sprout Q)) Shows where
  outcome a _ _ h := (h.step a).1
  state a _ _ h := (h.step a).2
  depth h := h.length_cursor.symm

theorem Shows.narrow (h : Shows s t) : t.tree.Narrow := by
  rw [h.tree]
  refine Rose.nest_narrow s.top.rose_narrow fun r hr => ?_
  obtain ⟨p, hp, rfl⟩ := List.mem_map.1 hr
  obtain ⟨kind, children, hnode, takes, -⟩ := p.rose_node
  exact ⟨p.rose_narrow, kind, children, hnode, takes.trans (h.roomy p hp)⟩

/-- both are finished with the same tree, or with as many scopes left open -/
theorem Shows.finish (h : Shows s t) : t.finish = s.finish.map Predicate.rose := by
  obtain ⟨scopes, base⟩ := s
  cases scopes with
  | nil =>
    have root : t.cursor = [] := h.cursor
    simp only [Sprout.finish, Draft.finish, root, List.isEmpty_nil, if_true, h.tree]
    rfl
  | cons closed rest =>
    have length : t.cursor.length = rest.length + 1 := h.length_cursor
    have opened : t.cursor.isEmpty = false := by
      cases hc : t.cursor with
      | nil => simp [hc] at length
      | cons => rfl
    simp [Sprout.finish, Draft.finish, opened, length, Draft.depth, Except.map]

end Sprout

namespace Draft

variable {Q : Type}

/-- closing a scope fails only when none is open -/
theorem pop_outcome {s : Draft Q} (h : s.Roomy) :
    (builder.step .pop s).1 = if s.depth = 0 then .error (.structural .noOpenScope) else .ok () := by
  obtain ⟨scopes, base⟩ := s
  cases scopes with
  | nil => rfl
  | cons closed rest =>
    obtain ⟨p, -, done⟩ := step_pop h
    rw [done]
    rfl

/-- **Putting scopes under their parents when they are closed cannot be told from doing so when they are opened.** After
the same steps, whichever of them fail, both builders have the same log and are finished with the same predicate or the
same fault; closing a scope has failed only where none was open, and no Root and no Not has got a second child. -/
theorem log_sprout (steps : List (Step Q)) :
    let run := builder.log steps initial
    let reference := Sprout.builder.log steps Sprout.initial
    run.1 = reference.1 ∧
      (∀ p, run.2.finish = .ok p ↔ reference.2.finish = .ok p.rose) ∧
      (∀ e, run.2.finish = .error e ↔ reference.2.finish = .error e) ∧
      (builder.step .pop run.2).1 = (if run.2.depth = 0 then .error (.structural .noOpenScope) else .ok ()) ∧
      reference.2.tree.Narrow := by
  intro run reference
  obtain ⟨same, shows⟩ := Sprout.follows.log steps Sprout.shows_initial
  refine ⟨same, fun p => ?_, fun e => ?_, pop_outcome shows.roomy, shows.narrow⟩
  · rw [shows.finish, map_eq_ok]
    constructor
    · exact fun h => ⟨p, h, rfl⟩
    · rintro ⟨q, hq, same⟩
      exact Predicate.rose_injective same ▸ hq
  · rw [shows.finish, map_eq_error]

end Draft

end EntitySearch
