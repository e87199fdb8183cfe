import ScriptEngine.Evaluation.Run
import ScriptEngine.Proofs.Display.Extension
import ScriptEngine.Proofs.Display.Parsing
import ScriptEngine.Proofs.OrderedMap

/-!
# Written data is evaluated

The expressions that a datum is read as evaluate to the datum read back. They wait for nothing and
change nothing but that they make new arrays and maps.

* `Eval.Builds`: evaluations that only make arrays and maps.
* `Datum.evaluates`: the expressions of data.
-/

namespace ScriptEngine

/-- The world with more arrays and maps behind those it has. -/
def World.extend (w : World) (arrays : Array (Array Value)) (maps : Array (OrderedMap Value)) :
    World :=
  { w with store := w.store.extend arrays maps }

namespace Eval

/-- An evaluation ends with a value, and all it does is to make some number of cells. -/
def Builds {α : Type} (x : Eval α) (w : World) (cells : Nat) (P : Store → α → Prop) : Prop :=
  ∀ env, ∃ a arrays maps, x env w = .done a (w.extend arrays maps) ∧
    cells ≤ arrays.size + maps.size ∧ P (w.extend arrays maps).store a

variable {α β : Type} {x : Eval α} {f : α → Eval β} {w : World} {n n' : Nat}
  {P P' : Store → α → Prop} {Q : Store → β → Prop}

theorem extend_empty : w.extend #[] #[] = w := by
  rw [World.extend, Store.extend_empty]

theorem Builds.imp (h : Builds x w n P) (le : n' ≤ n) (imp : ∀ s a, P s a → P' s a) :
    Builds x w n' P' := by
  intro env
  obtain ⟨a, arrays, maps, done, made, holds⟩ := h env
  exact ⟨a, arrays, maps, done, Nat.le_trans le made, imp _ _ holds⟩

/-- What was there before is there behind an evaluation. -/
theorem Builds.frame (h : Builds x w n P) : Builds x w n fun s a => w.store.Keeps s ∧ P s a := by
  intro env
  obtain ⟨a, arrays, maps, done, made, holds⟩ := h env
  exact ⟨a, arrays, maps, done, made, Store.keeps_extend, holds⟩

theorem Builds.bind (h : Builds x w n P)
    (h' : ∀ a arrays maps, P (w.extend arrays maps).store a →
      Builds (f a) (w.extend arrays maps) n' Q) : Builds (x >>= f) w (n + n') Q := by
  intro env
  obtain ⟨a, arrays, maps, done, made, holds⟩ := h env
  obtain ⟨b, arrays', maps', done', made', holds'⟩ := h' a arrays maps holds env
  have both : (w.extend arrays maps).extend arrays' maps' =
      w.extend (arrays ++ arrays') (maps ++ maps') := by
    rw [World.extend, World.extend, World.extend, ← Store.extend_extend]
  refine ⟨b, arrays ++ arrays', maps ++ maps', ?_, ?_, both ▸ holds'⟩
  · simp only [Bind.bind, done, done', both]
  · rw [Array.size_append, Array.size_append]
    omega

theorem builds_pure {a : α} (holds : P w.store a) : Builds (pure a) w 0 P := by
  refine fun env => ⟨a, #[], #[], ?_, Nat.zero_le _, ?_⟩
  · rw [extend_empty]
    rfl
  · rw [extend_empty]
    exact holds

/-- A new array holds the items. -/
theorem builds_newArray (items : List Value) : Builds (newArray items) w 1 fun s v =>
    ∃ id, v = .array id ∧ id < s.arrays.size ∧ (s.array id).toList = items := by
  have made : w.extend #[items.toArray] #[] =
      { w with store := { w.store with arrays := w.store.arrays.push items.toArray } } := by
    simp [World.extend, Store.extend]
  refine fun env => ⟨.array w.store.arrays.size, #[items.toArray], #[], ?_, Nat.le_refl 1,
    w.store.arrays.size, rfl, ?_, ?_⟩
  · rw [made]
    rfl
  · rw [made]
    simp
  · rw [made]
    simp [Store.array]

/-- A new map holds the entries. -/
theorem builds_newMap (entries : OrderedMap Value) : Builds (newMap entries) w 1 fun s v =>
    ∃ id, v = .map id ∧ id < s.maps.size ∧ s.map id = entries := by
  have made : w.extend #[] #[entries] =
      { w with store := { w.store with maps := w.store.maps.push entries } } := by
    simp [World.extend, Store.extend]
  refine fun env => ⟨.map w.store.maps.size, #[], #[entries], ?_, Nat.le_refl 1,
    w.store.maps.size, rfl, ?_, ?_⟩
  · rw [made]
    rfl
  · rw [made]
    simp
  · rw [made]
    simp [Store.map]

end Eval

namespace Datum

open Eval

variable {d : Datum} {e : Expr} {frame : FrameId} {w : World} {levels : Nat}

/-- A machine that evaluates goals through at most so many levels. -/
def machine (levels : Nat) : Machine := ⟨fun goal => goal.run levels⟩

theorem eval_literal {m : Machine} {value : Literal} (same : e.kind = .literal value) :
    eval m e frame = pure (.ofLiteral value) := by
  rw [eval, same]

/-! Other expressions are evaluated one level down. -/

theorem eval_negate {operand : Expr} (same : e.kind = .unary .negate operand) :
    eval (machine (levels + 1)) e frame =
      (do ofExcept (UnaryOp.negate.apply (← eval (machine levels) operand frame))) := by
  rw [eval, same]
  change expression (machine levels) e frame = _
  rw [expression, same]

theorem eval_array {es : List Expr} (same : e.kind = .array es) :
    eval (machine (levels + 1)) e frame =
      (do newArray (← evaluateAll (machine levels) frame es)) := by
  rw [eval, same]
  change expression (machine levels) e frame = _
  rw [expression, same]

theorem eval_tuple {es : List Expr} (same : e.kind = .tuple es) :
    eval (machine (levels + 1)) e frame =
      (do return .tuple (← evaluateAll (machine levels) frame es)) := by
  rw [eval, same]
  change expression (machine levels) e frame = _
  rw [expression, same]

theorem eval_map {rows : List (Expr × Expr)} (same : e.kind = .map rows) :
    eval (machine (levels + 1)) e frame =
      (do newMap (← mapEntries (machine levels) frame rows .empty)) := by
  rw [eval, same]
  change expression (machine levels) e frame = _
  rw [expression, same]

/-- A datum is evaluated through so many levels. -/
def Evaluates (d : Datum) (levels : Nat) : Prop :=
  ∀ e frame w, d.Written e → Builds (eval (machine levels) e frame) w d.cells fun s v =>
    s.Holds d.reread v

theorem evaluates_literal {value : Literal} (written : ∀ e, d.Written e → e.kind = .literal value)
    (holds : ∀ s : Store, s.Holds d.reread (.ofLiteral value)) (plain : d.cells = 0) :
    d.Evaluates levels := by
  intro e frame w h
  rw [eval_literal (written e h), plain]
  exact builds_pure (holds _)

/-- A number with a minus is that of its numeral negated. -/
theorem evaluates_number {x : Float} : (number x).Evaluates (levels + 1) := by
  intro e frame w h
  rw [Written] at h
  split at h
  · next negated =>
    obtain ⟨operand, same, literal⟩ := h
    rw [eval_negate same, eval_literal literal]
    refine builds_pure (a := Value.number (-Decimal.valueOf (Decimal.numeralOf x))) ?_
    rw [reread, Store.Holds, Decimal.readBack, if_pos negated]
  · next positive =>
    rw [eval_literal h]
    refine builds_pure ?_
    rw [reread, Store.Holds, Decimal.readBack, if_neg positive]
    rfl

/-- Items are evaluated in order. -/
theorem builds_evaluateAll {ds : List Datum} (items : ∀ d ∈ ds, d.Evaluates levels) {es : List Expr}
    (written : WrittenAll ds es) (frame : FrameId) (w : World) :
    Builds (evaluateAll (machine levels) frame es) w (cellsOfAll ds) fun s values =>
      s.HoldsAll (rereadAll ds) values := by
  induction ds generalizing es w with
  | nil =>
    obtain rfl : es = [] := written
    exact builds_pure rfl
  | cons d ds ih =>
    obtain ⟨e, rest, rfl, first, others⟩ := written
    have head := items d List.mem_cons_self e frame w first
    have all := head.bind (f := fun v => do return v :: (← evaluateAll (machine levels) frame rest))
      (Q := fun s values => s.HoldsAll (rereadAll (d :: ds)) values) fun v arrays maps held =>
        (ih (fun d mem => items d (List.mem_cons_of_mem _ mem)) others _).frame.bind
          fun values arrays' maps' ⟨kept, heldAll⟩ =>
            builds_pure ⟨v, values, rfl, held.keeps kept, heldAll⟩
    exact all.imp (by rw [cellsOfAll]; omega) fun _ _ holds => holds

/-- Entries are evaluated in order and come behind those that are there. -/
theorem builds_mapEntries {entries : List (String × Datum)}
    (values : ∀ entry ∈ entries, entry.2.Evaluates levels) {rows : List (Expr × Expr)}
    (written : WrittenEntries entries rows) (distinct : (entries.map (·.1)).Nodup) (frame : FrameId)
    (w : World) (start : OrderedMap Value)
    (fresh : ∀ key ∈ entries.map (·.1), key ∉ start.entries.map (·.1)) :
    Builds (mapEntries (machine levels) frame rows start) w (cellsOfEntries entries) fun s m =>
      ∃ more, m.entries = start.entries ++ more ∧ s.HoldsEntries (rereadEntries entries) more := by
  induction entries generalizing rows w start with
  | nil =>
    obtain rfl : rows = [] := written
    exact builds_pure ⟨[], (List.append_nil _).symm, rfl⟩
  | cons entry entries ih =>
    obtain ⟨key, d⟩ := entry
    obtain ⟨k, e, rest, rfl, named, first, others⟩ := written
    rw [List.map_cons, List.nodup_cons] at distinct
    rw [mapEntries, eval_literal named]
    have new : key ∉ start.entries.map (·.1) := fresh key List.mem_cons_self
    have head := values (key, d) List.mem_cons_self e frame w first
    have all := head.bind (f := fun v => mapEntries (machine levels) frame rest (start.insert key v))
      (Q := fun s m => ∃ more, m.entries = start.entries ++ more ∧
        s.HoldsEntries (rereadEntries ((key, d) :: entries)) more) fun v arrays maps held => by
        have inserted := OrderedMap.entries_insert v new
        refine ((ih (fun entry mem => values entry (List.mem_cons_of_mem _ mem)) others distinct.2 _
          (start.insert key v) fun other mem => ?_).frame).imp (Nat.le_refl _) ?_
        · have apart : other ≠ key := fun same => distinct.1 (same ▸ mem)
          have missing := fresh other (List.mem_cons_of_mem _ mem)
          rw [inserted, List.map_append, List.mem_append, not_or]
          exact ⟨missing, fun same => apart (List.mem_singleton.mp same)⟩
        · rintro s m ⟨kept, more, same, heldAll⟩
          refine ⟨(key, v) :: more, ?_, v, more, rfl, held.keeps kept, heldAll⟩
          rw [same, inserted, List.append_assoc, List.singleton_append]
    exact all.imp (by rw [cellsOfEntries]; dsimp only; omega) fun _ _ holds => holds

mutual

/-- The expressions of a datum evaluate to the datum read back. -/
theorem evaluates {d : Datum} (regular : d.Regular) {levels : Nat} (enough : d.height < levels) :
    d.Evaluates levels := by
  obtain ⟨levels, rfl⟩ : ∃ n, levels = n + 1 := ⟨levels - 1, by omega⟩
  match d with
  | .null => exact evaluates_literal (fun _ written => written) (fun _ => rfl) rfl
  | .unit => exact evaluates_literal (fun _ written => written) (fun _ => rfl) rfl
  | .bool b => exact evaluates_literal (fun _ written => written) (fun _ => rfl) rfl
  | .string t => exact evaluates_literal (fun _ written => written) (fun _ => rfl) rfl
  | .number x => exact evaluates_number
  | .array items =>
    rw [height] at enough
    rintro e frame w ⟨es, same, written⟩
    have lower : heightOfAll items < levels := by omega
    have inside := builds_evaluateAll (evaluates_all regular lower) written frame w
    rw [eval_array same]
    refine inside.bind fun values arrays maps held => (builds_newArray values).frame.imp
      (Nat.le_refl 1) ?_
    rintro s _ ⟨kept, id, rfl, bound, found⟩
    exact ⟨id, rfl, bound, found ▸ held.keeps kept⟩
  | .tuple items =>
    rw [height] at enough
    rintro e frame w ⟨es, same, written⟩
    have lower : heightOfAll items < levels := by omega
    have inside := builds_evaluateAll (evaluates_all regular.2 lower) written frame w
    have all := inside.bind (f := fun values => pure (Value.tuple values))
      (Q := fun s v => s.Holds (reread (.tuple items)) v) fun values arrays maps held =>
        builds_pure ⟨values, rfl, held⟩
    rw [eval_tuple same]
    exact all
  | .map entries =>
    rw [height] at enough
    rintro e frame w ⟨rows, same, written⟩
    have lower : heightOfEntries entries < levels := by omega
    have inside := builds_mapEntries (evaluates_entries regular.2 lower) written regular.1 frame
      w .empty (fun _ _ no => by cases no)
    rw [eval_map same]
    refine inside.bind fun m arrays maps ⟨more, all, held⟩ => (builds_newMap m).frame.imp
      (Nat.le_refl 1) ?_
    rintro s _ ⟨kept, id, rfl, bound, found⟩
    refine ⟨id, rfl, bound, ?_⟩
    rw [found, all]
    exact held.keeps kept

theorem evaluates_all {ds : List Datum} (regular : RegularAll ds) {levels : Nat}
    (enough : heightOfAll ds < levels) : ∀ d ∈ ds, d.Evaluates levels := by
  match ds with
  | [] => exact fun d none => absurd none List.not_mem_nil
  | d :: ds =>
    rw [heightOfAll] at enough
    exact List.forall_mem_cons.mpr
      ⟨evaluates regular.1 (by omega), evaluates_all regular.2 (by omega)⟩

theorem evaluates_entries {entries : List (String × Datum)} (regular : RegularEntries entries)
    {levels : Nat} (enough : heightOfEntries entries < levels) :
    ∀ entry ∈ entries, entry.2.Evaluates levels := by
  match entries with
  | [] => exact fun entry none => absurd none List.not_mem_nil
  | (key, d) :: entries =>
    rw [heightOfEntries] at enough
    exact List.forall_mem_cons.mpr
      ⟨evaluates regular.1 (by omega), evaluates_entries regular.2 (by omega)⟩

end

end Datum

end ScriptEngine
