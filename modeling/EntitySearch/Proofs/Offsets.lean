/-
Where syntax errors are.

A syntax error names a byte of the query text. Those of the parser stand between two characters, and those that are
found when a query is resolved, or too deep, at the start of the text. The limit on the length of a text is counted in
bytes, and a text that is longer is refused at that byte: between two characters if the limit falls there, and else
inside one, where the text cannot be cut (`compile_malformed_isValid`, `compile_inside`).
-/
import EntitySearch.Engine
import EntitySearch.Proofs.Query.Suffix
import EntitySearch.Proofs.Render.Faults

namespace EntitySearch

/-! ## Resolving -/

/-- a syntax error is at the start of the text -/
def AtStart : QueryError → Prop
  | .malformed fault => fault.offset = 0
  | .aliasing _ | .schema _ | .structural _ | .unsupported _ | .unbound _ => True

theorem FailsOnly.foldlM {ε α β : Type} {P : ε → Prop} {f : β → α → Except ε β} (h : ∀ b a, FailsOnly P (f b a))
    (xs : List α) (b : β) : FailsOnly P (xs.foldlM f b) := by
  induction xs generalizing b with
  | nil => exact .ok b
  | cons x xs ih => exact (h b x).bind fun b' _ => ih b'

namespace Scope

variable (c : Catalog) (parameters : Parameters) (s : Scope)

theorem checkRoots_fails : FailsOnly AtStart s.checkRoots := by
  unfold checkRoots
  split
  · exact .error trivial
  · exact .ok _

theorem targetType_fails : FailsOnly AtStart s.targetType := by
  unfold targetType
  split
  · exact .ok _
  · exact .error rfl

theorem aliasPath_fails (name : String) : FailsOnly AtStart (s.aliasPath name) := by
  refine s.checkRoots_fails.bind fun _ _ => ?_
  split
  · exact .ok _
  · split
    · exact .ok _
    · exact .error trivial
  · exact .error trivial

theorem stepInto_fails (p : Path) (name : String) : FailsOnly AtStart (stepInto c p name) := by
  unfold stepInto
  split
  · exact .error trivial
  · split
    · exact .error trivial
    · split
      · exact .error trivial
      · exact .ok _

theorem lastStep_fails (p : Path) (name : String) : FailsOnly AtStart (s.lastStep c p name) := by
  unfold lastStep
  split
  · exact .error trivial
  · split
    · exact .error trivial
    · split
      · exact .ok _
      · split
        · exact .error trivial
        · exact .ok _

theorem singleName_fails (name : String) : FailsOnly AtStart (s.singleName c name) := by
  unfold singleName
  split
  · exact s.aliasPath_fails name
  · exact s.checkRoots_fails.bind fun _ _ => s.targetType_fails.bind fun _ _ => s.lastStep_fails c _ name

theorem start_fails (name : String) : FailsOnly AtStart (s.start c name) := by
  unfold start
  split
  · exact s.aliasPath_fails name
  · refine s.checkRoots_fails.bind fun _ _ => s.targetType_fails.bind fun type _ => ?_
    split
    · exact .error trivial
    · exact stepInto_fails c _ name

theorem descend_fails (p : Path) (names : List String) : FailsOnly AtStart (descend c p names) := by
  induction names generalizing p with
  | nil => exact .ok p
  | cons name rest ih => exact (stepInto_fails c p name).bind fun next _ => ih next

theorem canonicalText_fails (p : Path) : FailsOnly AtStart (s.canonicalText p) := by
  unfold canonicalText
  split
  · exact .ok _
  · exact .error trivial

theorem checkEnd_fails (p : Path) : FailsOnly AtStart (s.checkEnd p) := by
  unfold checkEnd
  split
  · exact .ok _
  · split
    · exact .error trivial
    · split
      · exact (s.canonicalText_fails p).bind fun _ _ => .error trivial
      · exact .ok _

theorem resolvePath_fails (e : PathExpr) : FailsOnly AtStart (s.resolvePath c e) := by
  unfold resolvePath
  split
  · exact .error trivial
  · split
    · exact .error rfl
    · exact (s.singleName_fails c _).bind fun p _ => s.checkEnd_fails p
    · exact (s.start_fails c _).bind fun p _ => (descend_fails c p _).bind fun q _ =>
        (s.lastStep_fails c q _).bind fun r _ => s.checkEnd_fails r

theorem resolveProperty_fails (e : PathExpr) : FailsOnly AtStart (s.resolveProperty c e) := by
  refine (s.resolvePath_fails c e).bind fun p _ => ?_
  split
  · dsimp only
    split
    · exact ((s.canonicalText_fails p).map _).bind fun _ _ => .error trivial
    · exact (FailsOnly.ok _).bind fun _ _ => .error trivial
  · exact .ok _

theorem resolveAggregate_fails (a : AggregateExpr) : FailsOnly AtStart (s.resolveAggregate c a) :=
  (s.resolveProperty_fails c a.path).bind fun _ _ => .ok _

theorem resolveOperand_fails (clause : Clause) (o : Operand) :
    FailsOnly AtStart (s.resolveOperand c parameters clause o) := by
  cases o with
  | path e =>
    cases clause with
    | filter => exact (s.resolveProperty_fails c e).bind fun _ _ => .ok _
    | having => exact .error trivial
  | aggregate a =>
    cases clause with
    | filter => exact .error trivial
    | having => exact (s.resolveAggregate_fails c a).bind fun _ _ => .ok _
  | literal l => exact .ok _
  | named name =>
    simp only [resolveOperand]
    split
    · exact .ok _
    · exact .error trivial
  | positional number => exact .error trivial

theorem addSources_fails (sources : List Source) : FailsOnly AtStart (s.addSources c sources) := by
  refine FailsOnly.foldlM (fun s source => ?_) sources s
  have step := s.addSource_step c source.entity source.name
  generalize s.addSource c source.entity source.name = ended at step ⊢
  cases step with
  | unknown _ => exact .error trivial
  | conflict _ _ => exact .error trivial
  | first _ _ _ => exact .ok _
  | again _ _ _ => exact .ok _
  | other _ _ _ _ => exact .error trivial

theorem addJoins_fails (joins : List Join) : FailsOnly AtStart (s.addJoins c joins) := by
  refine FailsOnly.foldlM (fun s join => (s.resolvePath_fails c join.path).bind fun p _ => ?_) joins s
  unfold addJoin
  split
  · exact .ok _
  · exact .error trivial

end Scope

namespace Condition

variable {α β ε : Type} {P : ε → Prop} {f : α → Except ε β}

mutual

/-- resolving a condition fails only as its operands do -/
theorem traverse_fails (hf : ∀ a, FailsOnly P (f a)) : ∀ c : Condition α, FailsOnly P (traverse f c)
  | .and cs => (traverseAll_fails hf cs).bind fun _ _ => .ok _
  | .or cs => (traverseAll_fails hf cs).bind fun _ _ => .ok _
  | .not c => (traverse_fails hf c).bind fun _ _ => .ok _
  | .compare _ left right => (hf left).bind fun _ _ => (hf right).bind fun _ _ => .ok _
  | .between operand lower upper _ =>
    (hf operand).bind fun _ _ => (hf lower).bind fun _ _ => (hf upper).bind fun _ _ => .ok _
  | .among operand _ _ => (hf operand).bind fun _ _ => (FailsOnly.mapM fun v _ => hf v).bind fun _ _ => .ok _
  | .like operand pattern _ _ => (hf operand).bind fun _ _ => (hf pattern).bind fun _ _ => .ok _
  | .isNull operand _ => (hf operand).bind fun _ _ => .ok _

theorem traverseAll_fails (hf : ∀ a, FailsOnly P (f a)) :
    ∀ cs : List (Condition α), FailsOnly P (traverseAll f cs)
  | [] => .ok []
  | c :: rest => (traverse_fails hf c).bind fun _ _ => (traverseAll_fails hf rest).bind fun _ _ => .ok _

end

end Condition

theorem resolveOptional_fails (c : Catalog) (parameters : Parameters) (s : Scope) (clause : Clause)
    (condition : Option (Condition Operand)) : FailsOnly AtStart (resolveOptional c parameters s clause condition) := by
  cases condition with
  | none => exact .ok none
  | some condition =>
    exact (Condition.traverse_fails (s.resolveOperand_fails c parameters clause) condition).bind fun _ _ => .ok _

/-- resolving a query finds syntax errors at the start of its text only -/
theorem resolve_fails (c : Catalog) (parameters : Parameters) (q : Statement) :
    FailsOnly AtStart (q.resolve c parameters) := by
  refine (Scope.addSources_fails c _ q.sources).bind fun s _ => (s.addJoins_fails c q.joins).bind fun s _ => ?_
  have items : FailsOnly AtStart (((q.select.map (·.items)).getD []).mapM ((s.leave.enter .select).resolveItem c)) := by
    refine .mapM fun item _ => ?_
    cases item with
    | path e => exact (Scope.resolvePath_fails c _ e).bind fun _ _ => .ok _
    | aggregate a => exact (Scope.resolveAggregate_fails c _ a).bind fun _ _ => .ok _
  refine items.bind fun _ _ => (resolveOptional_fails c parameters _ _ _).bind fun _ _ => ?_
  refine (FailsOnly.mapM fun e _ => Scope.resolveProperty_fails c _ e).bind fun _ _ => ?_
  refine (resolveOptional_fails c parameters _ _ _).bind fun _ _ => ?_
  refine (FailsOnly.mapM fun item _ => (Scope.resolveProperty_fails c _ item.path).bind fun _ _ => .ok _).bind
    fun _ _ => ?_
  split
  · exact .error rfl
  · exact .ok _

/-! ## Compiling -/

namespace Engine

variable {Q : Type} {config : Config} {c : Catalog} {parameters : Parameters} {f : Factory Q} {text : String}

/-- a text within the limit is at fault at a place where it can be cut -/
theorem read_isValid (short : text.utf8ByteSize ≤ config.maxQueryLength) {e : SyntaxError}
    (h : read config text = .error (.malformed e)) : String.Pos.Raw.IsValid text ⟨e.offset⟩ := by
  have within : ¬config.maxQueryLength < Text.byteLength text.toList := by
    rw [Query.byteLength_eq, String.ofList_toList]
    exact Nat.not_lt.2 short
  rw [read, if_neg within] at h
  split at h
  · rename_i fault hfault
    cases h
    exact Query.parse_error_isValid hfault
  · split at h
    · cases h
      exact String.Pos.Raw.isValid_zero
    · cases h

/-- a text beyond the limit is refused at the byte of the limit, whatever stands there -/
theorem read_long (long : config.maxQueryLength < text.utf8ByteSize) :
    ∃ e, read config text = .error (.malformed e) ∧ e.offset = config.maxQueryLength := by
  have beyond : config.maxQueryLength < Text.byteLength text.toList := by
    rwa [Query.byteLength_eq, String.ofList_toList]
  rw [read, if_pos beyond]
  exact ⟨_, rfl, rfl⟩

/-- syntax errors are those of reading, or at the start of the text -/
theorem compile_malformed {e : SyntaxError} (h : compile config c parameters f text = .error (.malformed e)) :
    read config text = .error (.malformed e) ∨ e.offset = 0 := by
  rcases bind_eq_error.1 h with h | ⟨q, -, h⟩
  · exact .inl h
  · rcases bind_eq_error.1 h with h | ⟨s, hs, h⟩
    · exact .inr (resolve_fails c parameters q _ h)
    · cases render_fails (Statement.resolve_ok hs) f _ h

/-- **Syntax errors point into the text, and between two of its characters** unless it is longer than the limit and the
limit falls inside a character. -/
theorem compile_malformed_isValid {e : SyntaxError}
    (h : compile config c parameters f text = .error (.malformed e)) :
    e.offset ≤ text.utf8ByteSize ∧
      (String.Pos.Raw.IsValid text ⟨e.offset⟩ ↔
        text.utf8ByteSize ≤ config.maxQueryLength ∨ String.Pos.Raw.IsValid text ⟨config.maxQueryLength⟩) := by
  by_cases long : config.maxQueryLength < text.utf8ByteSize
  · obtain ⟨e', hread, hoffset⟩ := read_long long
    have same : e' = e := by
      rw [compile, hread] at h
      cases h
      rfl
    rw [← same, hoffset]
    exact ⟨Nat.le_of_lt long, .symm (or_iff_right (Nat.not_le_of_lt long))⟩
  · have short := Nat.le_of_not_lt long
    have valid : String.Pos.Raw.IsValid text ⟨e.offset⟩ := by
      rcases compile_malformed h with h | start
      · exact read_isValid short h
      · exact start ▸ String.Pos.Raw.isValid_zero
    exact ⟨valid.le_rawEndPos, iff_of_true valid (.inl short)⟩

/-- a text that is no query, with letters of more than one byte -/
theorem compile_huetten_isValid : ∃ e,
    compile .standard hikes [] Trace.factory "from Hütte h où" = .error (.malformed e) ∧ e.offset = 14 ∧
      (String.Pos.Raw.IsValid "from Hütte h où" ⟨e.offset⟩ ↔
        "from Hütte h où".utf8ByteSize ≤ Config.standard.maxQueryLength ∨
          String.Pos.Raw.IsValid "from Hütte h où" ⟨Config.standard.maxQueryLength⟩) := by
  have h : read .standard "from Hütte h où" = .error (.malformed ⟨"unexpected input near 'où'", 14⟩) := by
    decide +kernel
  have refused : compile .standard hikes [] Trace.factory "from Hütte h où" =
      .error (.malformed ⟨"unexpected input near 'où'", 14⟩) := by
    rw [compile, h]
    rfl
  exact ⟨_, refused, rfl, (compile_malformed_isValid refused).2⟩

/-- a limit that is valid, and falls inside the letter ü of a text -/
theorem compile_inside : (⟨7, 64, false⟩ : Config).validated = .ok ⟨7, 64, false⟩ ∧
    ∃ e, compile ⟨7, 64, false⟩ hikes [] Trace.factory "from Hütte h" = .error (.malformed e) ∧
      ¬String.Pos.Raw.IsValid "from Hütte h" ⟨e.offset⟩ := by
  refine ⟨by decide +kernel, ?_⟩
  have long : (⟨7, 64, false⟩ : Config).maxQueryLength < "from Hütte h".utf8ByteSize := by decide +kernel
  obtain ⟨e, hread, hoffset⟩ := read_long long
  refine ⟨e, ?_, ?_⟩
  · rw [compile, hread]
    rfl
  · rw [hoffset]
    decide +kernel

end Engine

end EntitySearch
