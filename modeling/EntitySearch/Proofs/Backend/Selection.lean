/-
Which fields a search request asks for.

Every item of SELECT has its projection: an alias that stands for the entity has the entity, any other path the property
to which it points, and an aggregate its function and property (`items_projected`). A request has a list of fields if
properties are among the projections, with just these, in their order, and else it has none (`ofResult_source`). The
entity itself does not count, so that a property beside it narrows what is found of the entity
(`compile_selection`, `compile_hikeAndDifficulty_narrowed`).
-/
import EntitySearch.Backend.JsonQuery
import EntitySearch.Proofs.Aggregates
import EntitySearch.Proofs.Backend.Metrics
import EntitySearch.Proofs.Expansion

namespace EntitySearch

/-! ## Projections -/

/-- What is asked for by an item of SELECT. The names behind an alias of the entity are those of no property. -/
def SelectItem.projection (naming : Naming) : SelectItem → Projection
  | .path e =>
    if naming.expand e.segments = [] then .entity else .property (Text.dotted (naming.expand e.segments))
  | .aggregate a => .aggregate (.of a.function a.distinct) (Text.dotted (naming.expand a.path.segments))

section

variable {c : Catalog} {parameters : Parameters} {q : Statement} {s : ResolvedStatement} {naming : Naming}

theorem Scope.isRootAlias_expand {scope : Scope} (h : scope.Follows c naming) {e : PathExpr} {p : Path}
    (hp : scope.resolvePath c e = .ok p) (hroot : Render.isRootAlias scope.aliases p = true) :
    naming.expand e.segments = [] := by
  obtain ⟨known, -⟩ := resolvePath_known h.sound hp
  rw [← resolvePath_below h hp]
  unfold Render.isRootAlias at hroot
  split at hroot
  · rename_i name hstart hsteps
    split at hroot
    · rename_i entity hbound
      exact known.below_root hstart hsteps hbound
    · cases hroot
  · cases hroot

theorem Scope.resolveItem_projected {scope : Scope} {target : Target} (h : scope.Follows c naming)
    (ht : scope.target = some target) (inside : scope.inSelect = true) {item : SelectItem} {i : ResolvedItem}
    {p : Projection} (hi : scope.resolveItem c item = .ok i) (hp : Render.projection scope.aliases i = .ok p) :
    item.projection naming = p := by
  cases item with
  | path e =>
    obtain ⟨path, hpath, hi⟩ := bind_eq_ok.1 hi
    cases hi
    cases hroot : Render.isRootAlias scope.aliases path with
    | true =>
      rw [Render.projection, hroot] at hp
      cases hp
      rw [SelectItem.projection, if_pos (isRootAlias_expand h hpath hroot)]
    | false =>
      obtain ⟨canonical, selectable⟩ := (resolvePath_selectable h ht inside hpath).resolve_left (by simp [hroot])
      have some_name : naming.expand e.segments ≠ [] := fun none_left => by
        have present := selectable.present
        rw [none_left, Catalog.hasProperty_nil] at present
        cases present
      rw [Render.projection, hroot, propertyName_of_canonical canonical] at hp
      cases hp
      rw [SelectItem.projection, if_neg some_name]
  | aggregate a =>
    obtain ⟨path, hpath, hi⟩ := bind_eq_ok.1 hi
    cases hi
    obtain ⟨inner, hinner, hpath⟩ := bind_eq_ok.1 hpath
    cases hpath
    obtain ⟨canonical, -⟩ := resolveProperty_selectable h ht inside hinner
    rw [Render.projection, propertyName_of_canonical canonical] at hp
    cases hp
    rfl

/-- every item of SELECT has its projection, and there are no others -/
theorem items_projected {Q : Type} {f : Factory Q} (resolved : q.resolve c parameters = .ok s) {r : QueryResult Q}
    (rendered : s.render c f = .ok r) : r.projections = q.items.map (SelectItem.projection q.naming) := by
  have resolves := Statement.resolve_ok resolved
  have renders := ResolvedStatement.render_ok rendered
  have each : List.Forall₂ (fun item p => SelectItem.projection q.naming item = p) q.items r.projections := by
    refine forall₂_chain (fun item i p hi hp => ?_) resolves.items renders.projections
    exact Scope.resolveItem_projected (resolves.follows.enter .select) s.scope_target rfl hi hp
  exact (List.forall₂_eq_eq_eq ▸ List.forall₂_map_left_iff.2 each).symm

end

/-! ## Fields of a request -/

namespace Request

variable {Q : Type} (toJson : Q → Json) (r : QueryResult Q)

theorem mem_fields {projections : List Projection} {p : String} : p ∈ fields projections ↔ .property p ∈ projections := by
  rw [fields, List.mem_filterMap]
  constructor
  · rintro ⟨item, hitem, found⟩
    split at found <;> cases found
    exact hitem
  · exact fun h => ⟨_, h, rfl⟩

theorem map_fields (projections : List Projection) :
    (fields projections).map Projection.property = projections.filter fun p => p matches .property _ := by
  induction projections with
  | nil => rfl
  | cons p rest ih =>
    cases p with
    | property name => simpa [fields] using ih
    | _ => simpa [fields] using ih

/-- the fields of a request are the properties asked for, and without any all fields are returned -/
theorem ofResult_source : (ofResult toJson r).get? "_source" =
    if fields r.projections = [] then none else some (Json.texts (fields r.projections)) := by
  simp only [ofResult, Json.get?, List.lookup_append, lookup_unless, ne_eq, String.reduceEq, not_false_eq_true]
  cases fields r.projections with
  | nil => cases aggregations r <;> cases r.having <;> simp
  | cons first rest => simp [lookup_cons_ite]

end Request

namespace Engine

variable {Q : Type} (config : Config) (c : Catalog) (parameters : Parameters) (f : Factory Q) (toJson : Q → Json)
  (text : String)

/-- **The fields of a request are the properties in SELECT**, in their order, and without any all fields are returned.
It makes no difference whether the entity itself is selected beside them. -/
theorem compile_selection {r : QueryResult Q} (h : compile config c parameters f text = .ok r) :
    ∃ q, read config text = .ok q ∧ r.projections = q.items.map (SelectItem.projection q.naming) ∧
      ((Request.ofResult toJson r).get? "_source" = none ↔ ∀ name, .property name ∉ r.projections) ∧
      ∀ source, (Request.ofResult toJson r).get? "_source" = some source →
        ∃ names, source = Json.texts names ∧
          names.map Projection.property = r.projections.filter fun p => p matches .property _ := by
  obtain ⟨q, hq, h⟩ := bind_eq_ok.1 h
  obtain ⟨s, resolved, rendered⟩ := bind_eq_ok.1 h
  refine ⟨q, hq, items_projected resolved rendered, ?_, fun source hs => ?_⟩
  · rw [Request.ofResult_source]
    simp only [ite_eq_left_iff, reduceCtorEq, imp_false, not_not, List.eq_nil_iff_forall_not_mem, Request.mem_fields]
  · rw [Request.ofResult_source] at hs
    split at hs
    · cases hs
    · cases hs
      exact ⟨_, rfl, Request.map_fields _⟩

/-- The hike itself, a property of its start, and a number. -/
theorem compile_hikeAndAltitude_selection : ∃ r,
    compile .standard hikes [] JsonQuery.factory "SELECT h, s.altitude, COUNT(difficulty) FROM Hike h JOIN h.start s" =
      .ok r ∧
    ∃ q, read .standard "SELECT h, s.altitude, COUNT(difficulty) FROM Hike h JOIN h.start s" = .ok q ∧
      r.projections = q.items.map (SelectItem.projection q.naming) ∧
      ((Request.ofResult id r).get? "_source" = none ↔ ∀ name, .property name ∉ r.projections) ∧
      ∀ source, (Request.ofResult id r).get? "_source" = some source →
        ∃ names, source = Json.texts names ∧
          names.map Projection.property = r.projections.filter fun p => p matches .property _ := by
  obtain ⟨r, hr⟩ := exists_of_isOk (show (compile .standard hikes [] JsonQuery.factory
    "SELECT h, s.altitude, COUNT(difficulty) FROM Hike h JOIN h.start s").isOk = true by decide +kernel)
  exact ⟨r, hr, compile_selection .standard hikes [] JsonQuery.factory id _ hr⟩

/-- The whole hike is selected, and the request asks for its difficulty only. -/
theorem compile_hikeAndDifficulty_narrowed : ∃ r,
    compile .standard hikes [] JsonQuery.factory "SELECT h, h.difficulty FROM Hike h" = .ok r ∧
      .entity ∈ r.projections ∧ (Request.ofResult id r).get? "_source" = some (Json.texts ["difficulty"]) := by
  have projections : (compile .standard hikes [] JsonQuery.factory "SELECT h, h.difficulty FROM Hike h").toOption.map
      (·.projections) = some [.entity, .property "difficulty"] := by
    decide +kernel
  obtain ⟨r, hr, found⟩ := Option.map_eq_some_iff.1 projections
  refine ⟨r, toOption_eq_some.1 hr, by simp [found], ?_⟩
  rw [Request.ofResult_source, found]
  rfl

end Engine

end EntitySearch
