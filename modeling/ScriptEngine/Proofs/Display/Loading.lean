import ScriptEngine.Engine.Basic
import ScriptEngine.Proofs.Display.Parsing
import ScriptEngine.Proofs.Forest.Linking

/-!
# Written data is loaded

The text of a datum is a module that no analysis rejects and that links without others.

* `Analyzing.Passes`: steps of an analysis that reject nothing.
* `Datum.passes_infer`: the expressions of data are never rejected.
* `Datum.forestOf_text`: the text of a datum is loaded as a forest of one module.
-/

namespace ScriptEngine

namespace Analyzing

/-- A step that rejects no module. -/
def Passes {α : Type} (x : Analyzer α) : Prop :=
  ∀ setting s, ∃ a s', x setting s = .ok (a, s')

variable {α β : Type} {x : Analyzer α} {f : α → Analyzer β}

theorem Passes.bind (h : Passes x) (h' : ∀ a, Passes (f a)) : Passes (x >>= f) := by
  intro setting s
  obtain ⟨a, s', first⟩ := h setting s
  obtain ⟨b, s'', second⟩ := h' a setting s'
  refine ⟨b, s'', ?_⟩
  simp only [Bind.bind, ReaderT.bind, StateT.bind, Except.bind, first]
  exact second

theorem passes_pure (a : α) : Passes (pure a) :=
  fun _ s => ⟨a, s, rfl⟩

theorem passes_warn (warning : Warning) (position : Position) : Passes (warn warning position) :=
  fun _ _ => ⟨_, _, rfl⟩

theorem passes_recordType (id : Nat) (type : TypeExpr) : Passes (recordType id type) :=
  fun _ _ => ⟨_, _, rfl⟩

theorem passes_unaryType (op : UnaryOp) (type : TypeExpr) (position : Position) :
    Passes (unaryType op type position) := by
  unfold unaryType
  split
  · exact passes_pure _
  · split
    · exact passes_pure _
    · exact (passes_warn _ _).bind fun _ => passes_pure _

theorem passes_infer {e : Expr} (h : Passes (inferKind e.id e.position e.kind)) :
    Passes (infer e) := by
  obtain ⟨id, position, kind⟩ := e
  rw [infer]
  exact h.bind fun type => (passes_recordType _ _).bind fun _ => passes_pure _

theorem passes_literal {e : Expr} {value : Literal} (same : e.kind = .literal value) :
    Passes (infer e) := by
  refine passes_infer ?_
  rw [same, inferKind]
  exact passes_pure _

/-- A statement alone that is an expression. -/
theorem passes_analyzeStatements {s : Stmt} {e : Expr} {terminated : Bool}
    (same : s.kind = .expression e terminated) (h : Passes (infer e)) :
    Passes (analyzeStatements [s]) := by
  obtain ⟨position, kind⟩ := s
  obtain rfl : kind = .expression e terminated := same
  have each : Passes (analyzeEach [⟨position, .expression e terminated⟩]) := by
    rw [analyzeEach]
    exact h.bind fun type => by
      rw [analyzeEach]
      exact (passes_pure _).bind fun _ => passes_pure _
  have bodies : Passes (analyzeBodies [⟨position, .expression e terminated⟩]) := by
    rw [analyzeBodies, analyzeBodies]
    · exact passes_pure _
    · exact fun _ _ no => by cases no
  have functions : Passes (declareFunctions [⟨position, .expression e terminated⟩]) :=
    (passes_pure ()).bind fun _ => passes_pure _
  exact functions.bind fun _ => each.bind fun _ => bodies.bind fun _ => passes_pure _

end Analyzing

namespace Datum

open Analyzing

mutual

/-- The expressions of data are never rejected. -/
theorem passes_infer {d : Datum} {e : Expr} (written : d.Written e) : Passes (infer e) := by
  match d with
  | .null | .unit | .bool _ | .string _ => exact passes_literal written
  | .number x =>
    rw [Written] at written
    split at written
    · obtain ⟨operand, same, literal⟩ := written
      refine Analyzing.passes_infer ?_
      rw [same, inferKind]
      exact (passes_literal literal).bind fun type => passes_unaryType _ _ _
    · exact passes_literal written
  | .array items =>
    obtain ⟨es, same, written⟩ := written
    refine Analyzing.passes_infer ?_
    rw [same, inferKind]
    exact (passes_inferAll written).bind fun _ => passes_pure _
  | .tuple items =>
    obtain ⟨es, same, written⟩ := written
    refine Analyzing.passes_infer ?_
    rw [same, inferKind]
    exact (passes_inferAll written).bind fun _ => passes_pure _
  | .map entries =>
    obtain ⟨rows, same, written⟩ := written
    refine Analyzing.passes_infer ?_
    rw [same, inferKind]
    exact (passes_inferEntries written).bind fun _ => passes_pure _

theorem passes_inferAll {ds : List Datum} {es : List Expr} (written : WrittenAll ds es) :
    Passes (inferAll es) := by
  match ds with
  | [] =>
    obtain rfl : es = [] := written
    rw [inferAll]
    exact passes_pure _
  | d :: ds =>
    obtain ⟨e, rest, rfl, first, others⟩ := written
    rw [inferAll]
    exact (passes_infer first).bind fun _ => (passes_inferAll others).bind fun _ => passes_pure _

theorem passes_inferEntries {entries : List (String × Datum)} {rows : List (Expr × Expr)}
    (written : WrittenEntries entries rows) : Passes (inferEntries rows) := by
  match entries with
  | [] =>
    obtain rfl : rows = [] := written
    rw [inferEntries]
    exact passes_pure _
  | (key, d) :: entries =>
    obtain ⟨k, e, rest, rfl, named, first, others⟩ := written
    rw [inferEntries]
    exact (passes_literal named).bind fun _ => (passes_infer first).bind fun _ =>
      (passes_inferEntries others).bind fun _ => passes_pure _

end

end Datum

/-- A module of one expression that nothing rejects. -/
theorem Module.analyze_of_passes {m : Module} {s : Stmt} {e : Expr} {terminated : Bool}
    (single : m.statements = [s]) (same : s.kind = .expression e terminated)
    (h : Analyzing.Passes (Analyzing.infer e)) (bindings : List String) (strict : Bool) :
    ∃ analysis, m.analyze bindings strict = .ok analysis := by
  obtain ⟨type, state, passed⟩ :=
    Analyzing.passes_analyzeStatements same h ⟨m.name, strict⟩ (.start bindings)
  refine ⟨⟨state.table, Analyzing.moduleScope, state.types, state.meanings,
    state.warnings.toList, state.trace⟩, ?_⟩
  rw [Module.analyze, single]
  simp only [ReaderT.run, StateT.run, passed]
  rfl

/-! ## Loading -/

/-- The text of a datum is loaded as a forest of one module, which is one expression. -/
theorem Datum.forestOf_text {d : Datum} {source : String} (written : source.toList = d.text)
    (regular : d.Regular) (height : d.height ≤ 8) (finite : d.Numbers Decimal.IsFinite)
    (engine : Engine) : ∃ m s e, engine.forestOf source = .ok ⟨[m], engine.bindings⟩ ∧
      m.name = Engine.mainModule ∧ m.tree.body.statements = [s] ∧
        s.kind = .expression e false ∧ d.Written e := by
  have split : Token.Lexes source.toList d.kinds [] := written ▸ lexes_text finite .nil
  obtain ⟨tokens, lexed, ofKind⟩ := split.ofSource
  obtain ⟨block, s, e, parsed, single, isExpression, ofDatum⟩ := ofTokens_kinds regular height ofKind
  have ofSource : Module.ofSource Engine.mainModule source = .ok ⟨Engine.mainModule, block⟩ := by
    rw [Module.ofSource, lexed]
    dsimp only
    rw [parsed]
  obtain ⟨analysis, analysed⟩ := Module.analyze_of_passes (m := ⟨Engine.mainModule, block⟩) single
    isExpression (passes_infer ofDatum) engine.bindings.names engine.options.strictIdentifiers
  have added : engine.forestBuilder.addSource Engine.mainModule source =
      .ok (engine.forestBuilder.push ⟨⟨Engine.mainModule, block⟩, analysis⟩) :=
    (ForestBuilder.addSource_of_new rfl ofSource).trans (ForestBuilder.add_of_new rfl analysed)
  have imports : Module.imports ⟨Engine.mainModule, block⟩ = [] := by
    simp [Module.imports, Module.statements, single, isExpression]
  have exports : Module.exports ⟨Engine.mainModule, block⟩ = [] := by
    simp [Module.exports, Module.statements, single, isExpression]
  refine ⟨⟨⟨Engine.mainModule, block⟩, analysis⟩, s, e, ?_, rfl, single, isExpression, ofDatum⟩
  have linked := Forest.fault?_of_alone (m := ⟨⟨Engine.mainModule, block⟩, analysis⟩)
    imports exports engine.bindings
  rw [Engine.forestOf, added]
  simp only [Bind.bind, Except.bind, ForestBuilder.finish, ForestBuilder.push, Forest.link,
    Engine.forestBuilder, ForestBuilder.start, List.nil_append, linked]

end ScriptEngine
