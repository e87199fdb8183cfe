import ScriptEngine.Proofs.Decimal.Whole
import ScriptEngine.Proofs.Evaluation.Confinement
import ScriptEngine.Proofs.Evaluation.Selection
import ScriptEngine.Proofs.Modules.Engines

/-!
# What safe blocks report

A safe block ends where its body does, and is left by no signal: its value holds what the body has come
to, and reports that to whoever calls its methods. The code it reports is zero for a body that has come to
a value. A script can panic under any code, so the code tells this from a panic only if that has another
one.

* `Contained`: what becomes of a signal that is contained.
* `World.Reports`: what a value answers about a result.
* `CapturesResult`, `Eval.safe_reports`: what a safe block ends with.
* `Engine.panicked_silently`: a panic that looks like success.
-/

namespace ScriptEngine

/-! ## What is contained -/

/-- What is contained of what an evaluation has come to in a world: its value, or the panic by which it
was left. Another signal counts as a panic, and is noted. -/
inductive Contained {α : Type} : Except Stop α → World → Except Panic α → World → Prop
  | value {value : α} {w : World} : Contained (.ok value) w (.ok value) w
  | panic {cause : Panic} {w : World} :
    Contained (.error (.signal (.panic cause))) w (.error cause) w
  | stray {s : Signal} {w : World} : (∀ cause, s ≠ .panic cause) →
    Contained (.error (.signal s)) w (.error s.toPanic) (w.note .strayControl)

namespace Eval

variable {α : Type} {meanwhile : Wait → World → World → Prop} {env : EnvId} {w last : World}

/-- What is contained ends if what it contains does. -/
theorem comes_contain_ok {x : Eval α} {result : Except Panic α} :
    (contain x env w).Comes meanwhile (.ok result) last ↔
      ∃ outcome w', (x env w).Comes meanwhile outcome w' ∧ Contained outcome w' result last := by
  rw [contain, comes_bind]
  constructor
  · rintro (⟨attempted, w', comes, ends⟩ | ⟨stop, -, ⟨⟩⟩)
    refine ⟨_, w', Progress.comes_attempt_ok.mp comes, ?_⟩
    cases attempted with
    | ok value =>
      obtain ⟨⟨⟩, rfl⟩ := ends
      exact .value
    | error s =>
      cases s <;> obtain ⟨⟨⟩, rfl⟩ := ends
      case panic => exact .panic
      all_goals exact .stray nofun
  · rintro ⟨_, _, comes, contained⟩
    cases contained with
    | value => exact .inl ⟨.ok _, _, Progress.comes_attempt_ok.mpr comes, rfl, rfl⟩
    | panic => exact .inl ⟨.error _, _, Progress.comes_attempt_ok.mpr comes, rfl, rfl⟩
    | @stray s _ stray =>
      refine .inl ⟨.error s, _, Progress.comes_attempt_ok.mpr comes, ?_⟩
      cases s with
      | panic cause => exact absurd rfl (stray cause)
      | _ => exact ⟨rfl, rfl⟩

theorem comes_contain_error {x : Eval α} {stop : Stop} :
    (contain x env w).Comes meanwhile (.error stop) last ↔
      (∃ halt, stop = .unfinished halt) ∧ (x env w).Comes meanwhile (.error stop) last := by
  rw [contain, comes_bind]
  constructor
  · rintro (⟨attempted, w', -, ends⟩ | ⟨stop, comes, ⟨⟩⟩)
    · rcases attempted with (cause | value | _ | _) | value <;> cases ends.1
    · exact Progress.comes_attempt_error.mp comes
  · exact fun comes => .inr ⟨stop, Progress.comes_attempt_error.mpr comes, rfl⟩

end Eval

/-! ## Captured results -/

/-- The number under which a result is reported. -/
def Eval.codeOf : Except Panic Value → Int
  | .ok _ => 0
  | .error p => p.code.value

theorem Eval.safeMethod_panicCode (result : Except Panic Value) :
    safeMethod .panicCode result = .number (Float.ofInt (codeOf result)) := by
  cases result <;> rfl

/-- Numbers are equal if they compare as equal. -/
theorem Store.equals_zero (s : Store) (x : Float) :
    s.equals (.number x) (.ofNat 0) = (x == 0.0) := by
  rw [equals, Value.ofNat, sameFrom]
  rfl

/-- The world in which a result has been captured. -/
def World.capture (w : World) (result : Except Panic Value) : World :=
  { w with store := (w.store.newSafe result).2 }

/-- What a value answers in a world when a method of it is called: by whom and with what does not matter,
and nothing changes. -/
def World.Answers (w : World) (value : Value) (name : String) (answer : Value) : Prop :=
  ∀ (m : Machine) (args : List Value) (viewer : Option EntityRef) (env : EnvId),
    Eval.callMethod m value name args viewer env w = .done answer w

/-- A value reports a result. -/
structure World.Reports (w : World) (value : Value) (result : Except Panic Value) : Prop where
  /-- If the result is a value, the code is zero, and there is no message. -/
  completed {v : Value} : result = .ok v →
    w.Answers value "panic_code" (.ofNat 0) ∧ w.Answers value "get" v ∧
      w.Answers value "panic_message" .null
  /-- If it is a panic, the code and the message are those of the panic, and there is no value. -/
  failed {p : Panic} : result = .error p →
    w.Answers value "panic_code" (.number (Float.ofInt p.code.value)) ∧
      w.Answers value "get" .null ∧ w.Answers value "panic_message" (.string p.message)
  /-- The code counts as true if the result is a panic whose code is not zero. -/
  counts {code : Value} : w.Answers value "panic_code" code →
    (code.isTruthy = true ↔ ∃ p, result = .error p ∧ p.code.value ≠ 0)
  /-- It equals zero otherwise. -/
  equals {code : Value} : w.Answers value "panic_code" code →
    (w.store.equals code (.ofNat 0) = true ↔ ∀ p, result = .error p → p.code.value = 0)

namespace World

variable {w : World} {id : SafeId} {result : Except Panic Value} {value answer other : Value}
  {name : String}

theorem captured_capture (w : World) (result : Except Panic Value) :
    (w.capture result).store.captured w.store.safes.size = result := by
  simp [capture, Store.newSafe, Store.captured]

/-- Other results stay what they are. -/
theorem captured_capture_of_lt (there : id < w.store.safes.size) :
    (w.capture result).store.captured id = w.store.captured id := by
  simp [capture, Store.newSafe, Store.captured, Array.getD_eq_getD_getElem?,
    Array.getElem?_push_lt there, Array.getElem?_eq_getElem there]

theorem Answers.inj (answers : w.Answers value name answer) (answers' : w.Answers value name other) :
    answer = other := by
  have same := (answers ⟨fun _ => Eval.unfinished⟩ [] none 0).symm.trans
    (answers' ⟨fun _ => Eval.unfinished⟩ [] none 0)
  cases same
  rfl

/-- The value of a safe block reports what has been captured. -/
theorem reports (captured : w.store.captured id = result) : w.Reports (.safe id) result := by
  have code : w.Answers (.safe id) "panic_code" (Eval.safeMethod .panicCode result) :=
    fun _ _ _ _ => captured ▸ rfl
  have get : w.Answers (.safe id) "get" (Eval.safeMethod .get result) :=
    fun _ _ _ _ => captured ▸ rfl
  have message : w.Answers (.safe id) "panic_message" (Eval.safeMethod .panicMessage result) :=
    fun _ _ _ _ => captured ▸ rfl
  constructor
  case completed =>
    rintro v rfl
    exact ⟨code, get, message⟩
  case failed =>
    rintro p rfl
    exact ⟨code, get, message⟩
  case counts =>
    intro given answers
    rw [answers.inj code, Eval.safeMethod_panicCode, Value.isTruthy, bne, Bool.not_eq_true',
      ← Bool.not_eq_true, Decimal.beq_ofInt_zero_iff]
    cases result <;> simp [Eval.codeOf]
  case equals =>
    intro given answers
    rw [answers.inj code, Eval.safeMethod_panicCode, Store.equals_zero, Decimal.beq_ofInt_zero_iff]
    cases result <;> simp [Eval.codeOf]

end World

/-! ## Safe blocks -/

/-- A safe block ends with a value that reports what its body has come to. -/
structure CapturesResult (m : Machine) (meanwhile : Wait → World → World → Prop) (body : Block)
    (frame : FrameId) (env : EnvId) : Prop where
  /-- Neither a panic nor any other signal leaves the block. -/
  contains {e : Expr} {w last : World} {s : Signal} : e.kind = .safe body →
    ¬ (Eval.expression m e frame env w).Comes meanwhile (.error (.signal s)) last
  /-- The block is not finished if its body is not. -/
  unfinished {e : Expr} {w last : World} {halt : Halt} : e.kind = .safe body →
    ((Eval.expression m e frame env w).Comes meanwhile (.error (.unfinished halt)) last ↔
      (Eval.blockValue m body frame env w).Comes meanwhile (.error (.unfinished halt)) last)
  /-- Otherwise a new value holds what the body has come to. -/
  yields {e : Expr} {w last : World} {value : Value} : e.kind = .safe body →
    ((Eval.expression m e frame env w).Comes meanwhile (.ok value) last ↔
      ∃ outcome w' result w'', (Eval.blockValue m body frame env w).Comes meanwhile outcome w' ∧
        Contained outcome w' result w'' ∧ value = .safe w''.store.safes.size ∧
          last = w''.capture result)
  /-- This value holds the result, and those that were there hold what they held. -/
  holds {w : World} {result : Except Panic Value} :
    (w.capture result).store.captured w.store.safes.size = result ∧
      ∀ id < w.store.safes.size, (w.capture result).store.captured id = w.store.captured id
  /-- Wherever a method of such a value is called, it reports what the value holds. -/
  reports {w : World} {id : SafeId} : w.Reports (.safe id) (w.store.captured id)

namespace Eval

theorem expression_safe (m : Machine) (id : Nat) (position : Position) (body : Block)
    (frame : FrameId) : expression m ⟨id, position, .safe body⟩ frame = (do
      let result ← contain (blockValue m body frame)
      make (·.newSafe result)) := rfl

/-- What a safe block ends with. -/
theorem expression_safe_comes_iff {m : Machine} {meanwhile : Wait → World → World → Prop} {id : Nat}
    {position : Position} {body : Block} {frame : FrameId} {env : EnvId} {w last : World}
    {ended : Except Stop Value} :
    (expression m ⟨id, position, .safe body⟩ frame env w).Comes meanwhile ended last ↔
      (∃ outcome w' result w'', (blockValue m body frame env w).Comes meanwhile outcome w' ∧
        Contained outcome w' result w'' ∧ ended = .ok (.safe w''.store.safes.size) ∧
          last = w''.capture result) ∨
        ∃ halt, ended = .error (.unfinished halt) ∧
          (blockValue m body frame env w).Comes meanwhile (.error (.unfinished halt)) last := by
  rw [expression_safe, comes_bind]
  constructor
  · rintro (⟨result, w'', contained, made⟩ | ⟨stop, stops, rfl⟩)
    · obtain ⟨outcome, w', comes, contains⟩ := comes_contain_ok.mp contained
      exact .inl ⟨outcome, w', result, w'', comes, contains, made⟩
    · obtain ⟨⟨halt, rfl⟩, comes⟩ := comes_contain_error.mp stops
      exact .inr ⟨halt, rfl, comes⟩
  · rintro (⟨outcome, w', result, w'', comes, contains, made⟩ | ⟨halt, rfl, comes⟩)
    · exact .inl ⟨result, w'', comes_contain_ok.mpr ⟨outcome, w', comes, contains⟩, made⟩
    · exact .inr ⟨_, comes_contain_error.mpr ⟨⟨halt, rfl⟩, comes⟩, rfl⟩

/-- A safe block is not left by a panic. It ends, if its body does, with a value that reports what this has
come to: a value, or else a panic if the body is accepted. The code tells one from the other, as long as
that of the panic is not zero. -/
theorem safe_reports (m : Machine) (meanwhile : Wait → World → World → Prop) (body : Block)
    (frame : FrameId) (env : EnvId) : CapturesResult m meanwhile body frame env ∧
      ∀ {levels : Nat} {site : Site} {w last : World} {s : Signal}, w.Accepted →
        body.Suits site.body → w.Supports site frame →
        (blockValue ⟨fun goal => goal.run levels⟩ body frame env w).Comes
          (fun _ w w' => w'.Accepted ∧ w.Later w') (.error (.signal s)) last →
        ∃ cause, s = .panic cause := by
  refine ⟨⟨?contains, ?unfinished, ?yields, ⟨World.captured_capture .., fun _ =>
    World.captured_capture_of_lt⟩, World.reports rfl⟩, ?panics⟩
  case contains =>
    rintro ⟨id, position, _⟩ w last s ⟨⟩ ends
    rcases expression_safe_comes_iff.mp ends with ⟨_, _, _, _, -, -, ⟨⟩, -⟩ | ⟨_, ⟨⟩, -⟩
  case unfinished =>
    rintro ⟨id, position, _⟩ w last halt ⟨⟩
    refine expression_safe_comes_iff.trans ⟨?_, fun comes => .inr ⟨halt, rfl, comes⟩⟩
    rintro (⟨_, _, _, _, -, -, ⟨⟩, -⟩ | ⟨_, ⟨⟩, comes⟩)
    exact comes
  case yields =>
    rintro ⟨id, position, _⟩ w last value ⟨⟩
    refine expression_safe_comes_iff.trans ⟨?_, ?_⟩
    · rintro (⟨outcome, w', result, w'', comes, contains, ⟨⟩, same⟩ | ⟨_, ⟨⟩, -⟩)
      exact ⟨outcome, w', result, w'', comes, contains, rfl, same⟩
    · rintro ⟨outcome, w', result, w'', comes, contains, rfl, same⟩
      exact .inl ⟨outcome, w', result, w'', comes, contains, rfl, same⟩
  case panics =>
    intro levels site w last s accepted suits supports comes
    have tame := tame_run_open (d := .accepted) levels
    have follows : (blockValue _ body frame).Tame .accepted env w false false :=
      tame_blockValue tame (Block.fits_of_suits rfl suits) ⟨supports, trivial⟩
    exact ((follows w accepted (.refl w)).ends_of_comes comes).exists_panic

/-- The block `{ true() }`. -/
def uncallableSample : Block :=
  ⟨[⟨.nowhere, .expression ⟨0, .nowhere, .call ⟨1, .nowhere, .literal (.bool true)⟩ []⟩ false⟩],
    .nowhere⟩

/-- What cannot be called is reported under its code. -/
theorem safe_reports_of_uncallable :
    ∃ last, (expression ⟨fun goal => goal.run 3⟩ ⟨2, .nowhere, .safe uncallableSample⟩ 0 0 .bound).Comes
        (fun _ _ _ => False) (.ok (.safe 0)) last ∧
      last.Answers (.safe 0) "panic_code" (.number (Float.ofInt 103)) ∧
        last.Answers (.safe 0) "get" .null := by
  have law := (safe_reports ⟨fun goal => goal.run 3⟩ (fun _ _ _ => False) uncallableSample 0 0).1
  obtain ⟨message, w', first, panics⟩ : ∃ message w', w'.store.safes.size = 0 ∧
      (blockValue ⟨fun goal => goal.run 3⟩ uncallableSample 0 0 .bound).Comes (fun _ _ _ => False)
        (.error (.signal (.panic ⟨.notCallable, message⟩))) w' := ⟨_, _, rfl, rfl, rfl⟩
  have failed := (law.reports (w := w'.capture (.error ⟨.notCallable, message⟩))).failed law.holds.1
  have ends := (law.yields (e := ⟨2, .nowhere, .safe uncallableSample⟩) rfl).mpr
    ⟨_, _, _, _, panics, .panic, rfl, rfl⟩
  rw [first] at failed ends
  exact ⟨_, ends, failed.1, failed.2.1⟩

end Eval

namespace Engine

/-- The module `let s = safe { panic(0) }; s.panic_code()`. -/
def silentSample : Module :=
  ⟨"main", ⟨[
    ⟨.nowhere, .declare .letWord
      [⟨.bind "s", some ⟨0, .nowhere, .safe ⟨[⟨.nowhere, .expression ⟨1, .nowhere,
        .call ⟨2, .nowhere, .name "panic"⟩ [⟨3, .nowhere, .literal (.number 0.0)⟩]⟩ false⟩],
        .nowhere⟩⟩, .nowhere⟩]⟩,
    ⟨.nowhere, .expression ⟨4, .nowhere,
      .call ⟨5, .nowhere, .member ⟨6, .nowhere, .name "s"⟩ "panic_code"⟩ []⟩ false⟩], .nowhere⟩⟩

/-- The analysis accepts that program. The body panics, and the code is that of a body that does not. -/
theorem panicked_silently :
    (silentSample.analyze [] true).toBool = true ∧
      ((runAmong [silentSample] "main").2.world.store.captured 0).map (fun _ => ()) =
        .error ⟨⟨0⟩, "explicit panic"⟩ ∧
      (runAmong [silentSample] "main").1.toOption.map (·.isTruthy) = some false :=
  ⟨by decide +kernel, by decide +kernel, by decide +kernel⟩

end Engine

end ScriptEngine
