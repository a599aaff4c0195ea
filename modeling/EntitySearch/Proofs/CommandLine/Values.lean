/-
The values that options give to parameters.

An option is split at its first equals sign, so one that is made of a name and a text gives the text to the name,
whatever is in it (`splitParameter_assignment`). Options are taken one after the other, and each binds its own name and
no other. So an option for one parameter does not show in the values of the others, and they do not hang on what that
parameter would be typed by (`values_without`).
-/
import EntitySearch.Proofs.CommandLine.Targets
import EntitySearch.Proofs.Query.Literal

namespace EntitySearch.CommandLine

/-! ## One option -/

/-- the option that gives a text to a parameter -/
def assignment (name text : String) : String := name ++ "=" ++ text

theorem splitFirst_front {front : List Char} {c : Char} (free : c ∉ front) (rest : List Char) :
    Text.splitFirst c (front ++ c :: rest) = some (front, rest) := by
  induction front with
  | nil => simp [Text.splitFirst]
  | cons d front ih =>
    rw [List.mem_cons, not_or] at free
    simp [Text.splitFirst, Ne.symm free.1, ih free.2]

/-- the code points of white space -/
def blanks : List Nat :=
  [9, 10, 11, 12, 13, 32, 133, 160, 5760, 8192, 8193, 8194, 8195, 8196, 8197, 8198, 8199, 8200, 8201, 8202, 8232, 8233,
    8239, 8287, 12288]

/-- a character of a name is no white space -/
theorem not_isBlank_of_isNameChar {c : Char} (h : Text.isNameChar c = true) : Text.isBlank c = false := by
  have none_named : ∀ n ∈ blanks, Text.isNameChar (Char.ofNat n) = false := by decide +kernel
  rw [← Bool.not_eq_true]
  intro blank
  have listed : c.toNat ∈ blanks := by
    simp only [Text.isBlank, Bool.or_eq_true, Bool.and_eq_true, decide_eq_true_eq, beq_iff_eq] at blank
    simp only [blanks, List.mem_cons, List.not_mem_nil, or_false]
    omega
  have unnamed := none_named _ listed
  rw [Char.ofNat_toNat, h] at unnamed
  cases unnamed

/-- **An option of a name and a text gives the text to the name**, whatever the text is. -/
theorem splitParameter_assignment {name : String} (h : Query.isParameterName name = true) (text : String) :
    splitParameter (assignment name text) = .ok (name, text) := by
  obtain ⟨nonempty, chars⟩ := Query.isParameterName_iff.1 h
  have other {c : Char} (hc : Text.isNameChar c = false) : c ∉ name.toList := by
    intro mem
    rw [chars c mem] at hc
    cases hc
  have split : Text.splitFirst '=' (assignment name text).toList = some (name.toList, text.toList) := by
    have spelled : (assignment name text).toList = name.toList ++ '=' :: text.toList := by simp [assignment]
    rw [spelled]
    exact splitFirst_front (other (by decide)) _
  have front : Text.trimFront name.toList = name.toList := by
    apply Query.Clear.dropWhile
    intro c hc
    exact not_isBlank_of_isNameChar (chars c (List.mem_of_head? hc))
  have back : Text.trimBack name.toList = name.toList := by
    rw [Text.trimBack, Query.Clear.dropWhile, List.reverse_reverse]
    intro c hc
    exact not_isBlank_of_isNameChar (chars c (List.mem_reverse.1 (List.mem_of_head? hc)))
  have colon : name.toList.dropWhile (· == ':') = name.toList := by
    apply Query.Clear.dropWhile
    intro c hc
    rw [beq_eq_false_iff_ne]
    intro same
    exact other (by decide) (same ▸ List.mem_of_head? hc)
  rw [splitParameter, split]
  simp [front, back, colon, nonempty]

/-! ## Options in order -/

theorem lookup_setParameter (name : String) (v : Value) (ps : Parameters) (x : String) :
    (setParameter name v ps).lookup x = if x = name then some v else ps.lookup x :=
  lookup_replaced (setParameter name v) rfl (fun _ _ _ => rfl) ps x

/-- the parameters with one more option taken -/
def addParameter (c : Catalog) (entity : Option String) (targets : NamedPaths) (found : Parameters) (text : String) :
    Except ParameterError Parameters := do
  let (name, value) ← splitParameter text
  let v ← typedValue c entity targets name value
  .ok (setParameter name v found)

/-- the values of the parameters given for a query, as it is read -/
def typedParameters (c : Catalog) (q : Statement) (params : List String) : Except ParameterError Parameters :=
  params.foldlM (addParameter c (targetEntity c q) (parameterPaths q)) []

theorem parameterValues_eq {c : Catalog} {text : String} {q : Statement} (hq : Query.parse text = .ok q)
    (params : List String) : parameterValues c text params = typedParameters c q params := by
  unfold parameterValues typedParameters
  rw [hq]
  rfl

/-- the option is for another parameter, or for none -/
def Spares (name text : String) : Prop := ∀ value, splitParameter text ≠ .ok (name, value)

/-- The maps bind all names alike but one; that, the first binds to the value, if there is one. -/
structure AlikeBut (name : String) (value : Option Value) (ps ps' : Parameters) : Prop where
  others : ∀ x, x ≠ name → ps.lookup x = ps'.lookup x
  own : ps.lookup name = value

/-- only the property that a parameter is typed by counts for its value -/
theorem typedValue_of_lookup {targets targets' : NamedPaths} {name : String}
    (h : targets.lookup name = targets'.lookup name) (c : Catalog) (entity : Option String) (text : String) :
    typedValue c entity targets name text = typedValue c entity targets' name text := by
  simp only [typedValue, h]

section

variable {c : Catalog} {entity : Option String} {targets targets' : NamedPaths} {p t : String}

theorem addParameter_assignment (name : Query.isParameterName p = true) (found : Parameters) :
    addParameter c entity targets found (assignment p t) =
      (typedValue c entity targets p t).map fun v => setParameter p v found := by
  rw [addParameter, splitParameter_assignment name, ok_bind]
  dsimp only
  cases typedValue c entity targets p t <;> rfl

theorem AlikeBut.set {value : Option Value} {ps ps' : Parameters} (h : AlikeBut p value ps ps') (v : Value) :
    AlikeBut p (some v) (setParameter p v ps) ps' := by
  constructor
  · intro x other
    rw [lookup_setParameter, if_neg other, h.others x other]
  · rw [lookup_setParameter, if_pos rfl]

/-- what both are given leaves them as they were, but for the name that is given -/
theorem AlikeBut.set_both {value : Option Value} {ps ps' : Parameters} (h : AlikeBut p value ps ps') {x : String}
    (other : x ≠ p) (v : Value) : AlikeBut p value (setParameter x v ps) (setParameter x v ps') := by
  constructor
  · intro y hy
    rw [lookup_setParameter, lookup_setParameter, h.others y hy]
  · rw [lookup_setParameter, if_neg (Ne.symm other), h.own]

/-- **An option for another parameter** has the same outcome, whatever this one is typed by. -/
theorem addParameter_alike (same : ∀ x, x ≠ p → targets.lookup x = targets'.lookup x) {value : Option Value}
    {ps ps' : Parameters} {text : String} (spares : Spares p text) (h : AlikeBut p value ps ps') :
    SameOutcome (AlikeBut p value) (addParameter c entity targets ps text)
      (addParameter c entity targets' ps' text) := by
  unfold addParameter
  cases hs : splitParameter text with
  | error e => exact .error e
  | ok split =>
    obtain ⟨name, value⟩ := split
    have other : name ≠ p := by
      rintro rfl
      exact spares value hs
    simp only [ok_bind, typedValue_of_lookup (same name other)]
    exact .bind_same _ fun v => .ok (h.set_both other v)

variable {before after : List String}

/-- **An option for a parameter does not show in the others**: with it and without it, they have the same values, or the
same option fails. -/
theorem values_without (same : ∀ x, x ≠ p → targets.lookup x = targets'.lookup x)
    (name : Query.isParameterName p = true) (spares : ∀ text ∈ before ++ after, Spares p text) {v : Value}
    (hv : typedValue c entity targets p t = .ok v) :
    SameOutcome (AlikeBut p (some v))
      ((before ++ assignment p t :: after).foldlM (addParameter c entity targets) [])
      ((before ++ after).foldlM (addParameter c entity targets') []) := by
  rw [List.forall_mem_append] at spares
  have start : AlikeBut p none [] [] := ⟨fun _ _ => rfl, rfl⟩
  rw [List.foldlM_append, List.foldlM_append]
  refine SameOutcome.bind (.foldlM start fun text ht _ _ h => addParameter_alike same (spares.1 text ht) h)
    fun ps ps' alike => ?_
  rw [List.foldlM_cons, addParameter_assignment name, hv]
  exact .foldlM (alike.set v) fun text ht _ _ h => addParameter_alike same (spares.2 text ht) h

/-- a text that is no value of the property that it is compared with -/
theorem values_refused (name : Query.isParameterName p = true) {e : ParameterError}
    (hv : typedValue c entity targets p t = .error e) :
    ((before ++ assignment p t :: after).foldlM (addParameter c entity targets) []).toOption = none := by
  rw [List.foldlM_append]
  cases before.foldlM (addParameter c entity targets) [] with
  | error e => rfl
  | ok ps =>
    rw [ok_bind, List.foldlM_cons, addParameter_assignment name, hv]
    rfl

end

end EntitySearch.CommandLine
