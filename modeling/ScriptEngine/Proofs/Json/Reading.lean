import ScriptEngine.Json.Lenient

/-!
# What the reader of JSON takes

A text that is read as it stands has no single quotes outside its strings, and its strings end where the
rewriting of quotes sees their ends: reading and rewriting go through it side by side.

* `Json.Passes`: characters that the rewriting leaves as they are.
* `Json.Yields`: what is true behind a reader, whatever it comes to.
* `Json.Keeps`, `Json.KeepsOutside`: a reader takes only such characters.
* `Json.keeps_readString`, `Json.outside_readNumber`, `Json.outside_readValue`: all readers do.
* `Json.doubleQuotes_of_ofText`: so a text that can be read is not changed.
-/

namespace ScriptEngine.Json

variable {α β σ : Type} {s s' s'' : QuoteState} {c : Char} {text rest : List Char} {p p' : Cursor}

/-! ## Characters that are kept -/

/-- The state in a double-quoted string. -/
abbrev QuoteState.quoted : QuoteState := .inside '\x22'

/-- A character that is no quote. -/
def Bare (c : Char) : Prop := c ≠ '\'' ∧ c ≠ '\x22'

instance : DecidablePred Bare := fun _ => inferInstanceAs (Decidable (_ ∧ _))

theorem doubleQuotes_bare (bare : Bare c) (rest : List Char) :
    doubleQuotes .outside (c :: rest) = c :: doubleQuotes .outside rest := by
  rw [doubleQuotes, if_neg bare.1, if_neg bare.2]

theorem doubleQuotes_opening (rest : List Char) :
    doubleQuotes .outside ('\x22' :: rest) = '\x22' :: doubleQuotes .quoted rest := rfl

theorem doubleQuotes_closing (rest : List Char) :
    doubleQuotes .quoted ('\x22' :: rest) = '\x22' :: doubleQuotes .outside rest := rfl

theorem doubleQuotes_quoted (plain : c ≠ '\\' ∧ c ≠ '\x22') (rest : List Char) :
    doubleQuotes .quoted (c :: rest) = c :: doubleQuotes .quoted rest := by
  rw [doubleQuotes, if_neg plain.1, if_neg, if_neg plain.2]
  simp [plain.2]

theorem doubleQuotes_escaped (c : Char) (rest : List Char) :
    doubleQuotes .quoted ('\\' :: c :: rest) = '\\' :: c :: doubleQuotes .quoted rest := by
  rw [doubleQuotes, if_pos rfl, doubleQuotes, if_neg]
  simp

/-- The characters between two places in a text are kept as they are, from one state to another. -/
def Passes (s s' : QuoteState) (text rest : List Char) : Prop :=
  ∃ taken, text = taken ++ rest ∧
    ∀ behind, doubleQuotes s (taken ++ behind) = taken ++ doubleQuotes s' behind

theorem Passes.refl (s : QuoteState) (text : List Char) : Passes s s text text :=
  ⟨[], rfl, fun _ => rfl⟩

theorem Passes.trans {middle : List Char} (first : Passes s s' text middle)
    (second : Passes s' s'' middle rest) : Passes s s'' text rest := by
  obtain ⟨taken, rfl, kept⟩ := first
  obtain ⟨more, rfl, kept'⟩ := second
  refine ⟨taken ++ more, (List.append_assoc ..).symm, fun behind => ?_⟩
  rw [List.append_assoc, kept, kept', List.append_assoc]

theorem Passes.cons (kept : ∀ behind, doubleQuotes s (c :: behind) = c :: doubleQuotes s' behind)
    (rest : List Char) : Passes s s' (c :: rest) rest := ⟨[c], rfl, kept⟩

theorem rest_past (p : Cursor) (c : Char) (width : Nat) (rest : List Char) :
    (p.past c width rest).rest = rest := by
  rw [Cursor.past]
  split <;> rfl

/-! ## Readers -/

/-- Whatever a reader comes to, as far as it succeeds, has a property. -/
def Yields (r : Reader α) (p : Cursor) (post : α → Cursor → Prop) : Prop :=
  ∀ a p', r p = .ok (a, p') → post a p'

section

variable {r : Reader α} {f : α → Reader β} {middle post : α → Cursor → Prop}
  {post' : β → Cursor → Prop}

theorem bind_eq_ok_iff {b : β} :
    (r >>= f) p = .ok (b, p') ↔ ∃ a q, r p = .ok (a, q) ∧ f a q = .ok (b, p') := by
  show (r p >>= fun x => f x.1 x.2) = _ ↔ _
  cases r p with
  | error e =>
    constructor
    · exact fun h => by cases h
    · rintro ⟨a, q, h, -⟩
      cases h
  | ok x =>
    constructor
    · exact fun h => ⟨x.1, x.2, rfl, h⟩
    · rintro ⟨a, q, h, h'⟩
      cases h
      exact h'

theorem yields_pure {a : α} (holds : post a p) : Yields (pure a) p post := by
  intro b p' read
  cases read
  exact holds

theorem yields_bind (first : Yields r p middle)
    (second : ∀ a p', middle a p' → Yields (f a) p' post') : Yields (r >>= f) p post' := by
  intro b p' read
  obtain ⟨a, q, read, read'⟩ := bind_eq_ok_iff.mp read
  exact second a q (first a q read) b p' read'

theorem yields_failHere (fault : JsonFault) : Yields (failHere fault) p post :=
  fun _ _ read => by cases read

theorem yields_failNext (fault : JsonFault) : Yields (failNext fault) p post := by
  intro b p' read
  obtain ⟨rest, line, column⟩ := p
  cases rest <;> cases read

/-- What would come behind a failure is of no account. -/
theorem yields_failHere_bind (fault : JsonFault) : Yields (failHere fault >>= f) p post' :=
  yields_bind (yields_failHere fault : Yields _ _ fun _ _ => False) fun _ _ => False.elim

theorem yields_failNext_bind (fault : JsonFault) : Yields (failNext fault >>= f) p post' :=
  yields_bind (yields_failNext fault : Yields _ _ fun _ _ => False) fun _ _ => False.elim

theorem yields_peek {f : Option Char → Reader β} (looked : Yields (f p.rest.head?) p post') :
    Yields (peek? >>= f) p post' := looked

theorem yields_next :
    Yields next? p fun next p' => ∀ c, next = some c → p.rest = c :: p'.rest := by
  rintro _ p' read c rfl
  obtain ⟨_ | ⟨d, rest⟩, line, column⟩ := p
  · cases read
  · cases read
    rw [rest_past]

theorem yields_skip (head : p.rest.head? = some c) :
    Yields skip p fun _ p' => p.rest = c :: p'.rest := by
  intro a p' read
  obtain ⟨_ | ⟨d, rest⟩, line, column⟩ := p
  · cases head
  · cases head
    cases read
    rw [rest_past]

/-- What the steps of a loop leave as it is, and what its last step brings about. -/
theorem yields_repeating {step : σ → Reader (σ ⊕ α)} {state : σ} (i : Cursor → Prop)
    (once : ∀ state q, i q →
      Yields (step state) q fun result q' => result.elim (fun _ => i q') (post · q'))
    (first : i p) : Yields (repeating step state) p post := by
  have rounds (n : Nat) : ∀ state q, i q → Yields (loop step n state) q post := by
    induction n with
    | zero => exact fun _ _ _ => yields_failHere _
    | succ n ih =>
      refine fun state q holds => yields_bind (once state q holds) fun result q' reached => ?_
      cases result with
      | inl state => exact ih state q' reached
      | inr value => exact yields_pure reached
  exact rounds _ state p first

end

/-- What a reader takes is kept. -/
def Keeps (s s' : QuoteState) (r : Reader α) (p : Cursor) : Prop :=
  Yields r p fun _ p' => Passes s s' p.rest p'.rest

/-- What has been taken before is kept as well. -/
theorem Keeps.behind {r : Reader α} (keeps : Keeps s' s'' r p) (passed : Passes s s' text p.rest) :
    Yields r p fun _ p' => Passes s s'' text p'.rest :=
  fun a p' read => passed.trans (keeps a p' read)

theorem keeps_pure {a : α} : Keeps s s (pure a) p := yields_pure (.refl ..)

theorem keeps_bind {r : Reader α} {f : α → Reader β} (first : Keeps s s' r p)
    (second : ∀ a p', Keeps s' s'' (f a) p') : Keeps s s'' (r >>= f) p :=
  yields_bind first fun a p' passed => (second a p').behind passed

theorem keeps_repeating {step : σ → Reader (σ ⊕ α)} {state : σ}
    (once : ∀ state p, Keeps s s (step state) p) : Keeps s s (repeating step state) p := by
  refine yields_repeating (Passes s s p.rest ·.rest) (fun state q passed => ?_) (.refl ..)
  intro result q' read
  have passed := passed.trans (once state q result q' read)
  cases result <;> exact passed

theorem keeps_skip (head : p.rest.head? = some c)
    (kept : ∀ behind, doubleQuotes s (c :: behind) = c :: doubleQuotes s' behind) :
    Keeps s s' skip p := by
  intro a p' read
  rw [yields_skip head a p' read]
  exact .cons kept _

/-- A reader that begins outside strings and ends there. -/
abbrev KeepsOutside (r : Reader α) (p : Cursor) : Prop := Keeps .outside .outside r p

theorem outside_bind {r : Reader α} {f : α → Reader β} (first : KeepsOutside r p)
    (second : ∀ a p', KeepsOutside (f a) p') : KeepsOutside (r >>= f) p := keeps_bind first second

/-- Taking a character that has been looked at. -/
theorem outside_take {r : Reader β} (head : p.rest.head? = some c) (bare : Bare c)
    (next : ∀ p, KeepsOutside r p) : KeepsOutside (skip >>= fun _ => r) p :=
  keeps_bind (keeps_skip head (doubleQuotes_bare bare)) fun _ => next

/-! ## Words and numbers -/

/-- Blanks are passed, and the character behind them is looked at. -/
theorem yields_blanks : Yields blanks p fun next p' =>
    Passes .outside .outside p.rest p'.rest ∧ p'.rest.head? = next := by
  refine yields_repeating (Passes .outside .outside p.rest ·.rest)
    (fun _ q passed => yields_peek ?_) (.refl ..)
  have blank {c : Char} (head : q.rest.head? = some c) (bare : Bare c) :=
    keeps_skip head (doubleQuotes_bare bare)
  split
  iterate 4
    exact yields_bind (blank ‹_› (by decide)) fun _ _ taken => yields_pure (passed.trans taken)
  exact yields_pure ⟨passed, rfl⟩

theorem outside_letters {word : List Char} (bare : ∀ c ∈ word, Bare c) :
    KeepsOutside (letters word) p := by
  induction word generalizing p with
  | nil => exact keeps_pure
  | cons c word ih =>
    refine outside_bind (yields_peek ?_) fun _ p =>
      ih fun c among => bare c (List.mem_cons_of_mem _ among)
    split
    · exact yields_failHere _
    · split
      · next same =>
        exact keeps_skip ‹_› (doubleQuotes_bare (same ▸ bare c List.mem_cons_self))
      · exact yields_failNext _

/-- No digit is a quote. -/
theorem bare_of_digit? {d : Nat} (digit : digit? (some c) = some d) : Bare c := by
  refine ⟨?_, ?_⟩ <;> rintro rfl <;> cases digit

theorem outside_digit {d : Nat} {r : Reader β} (digit : digit? p.rest.head? = some d)
    (next : ∀ p, KeepsOutside r p) : KeepsOutside (skip >>= fun _ => r) p := by
  cases head : p.rest.head? with
  | none =>
    rw [head] at digit
    cases digit
  | some c => exact outside_take head (bare_of_digit? (head ▸ digit)) next

section

variable {positive : Bool} {significand : Nat} {exponent : Int}

theorem outside_scaled : KeepsOutside (scaled positive significand exponent) p := by
  unfold scaled
  extract_lets x signed y
  have given (size : Float) : KeepsOutside (pure size >>= signed) p := keeps_pure
  have tooLarge : KeepsOutside (failHere .numberOutOfRange >>= signed) p :=
    yields_failHere_bind _
  split
  · exact given _
  · split
    · split
      · exact tooLarge
      · exact given _
    · split
      · exact given _
      · exact tooLarge

theorem outside_skipDigits : KeepsOutside skipDigits p := by
  refine keeps_repeating fun _ p => yields_peek ?_
  split
  · exact outside_digit ‹_› fun _ => keeps_pure
  · exact keeps_pure

theorem outside_exponentPart (head : p.rest.head? = some c) (bare : Bare c) :
    KeepsOutside (exponentPart positive significand exponent) p := by
  refine outside_take head bare fun p => ?_
  extract_lets zero power
  have digits (positivePower : Bool) (p : Cursor) : KeepsOutside (power positivePower) p := by
    refine yields_peek ?_
    split
    · exact yields_failHere _
    · split
      · exact yields_failNext _
      · refine outside_take ‹_› (bare_of_digit? ‹_›) fun p => outside_bind ?_ fun power? p => ?_
        · refine keeps_repeating fun power p => yields_peek ?_
          split
          · refine outside_digit ‹_› fun p => ?_
            split <;> exact keeps_pure
          · exact keeps_pure
        · split
          · exact outside_scaled
          · have zero (p : Cursor) : KeepsOutside (zero ()) p :=
              outside_bind outside_skipDigits fun _ _ => keeps_pure
            split
            · exact yields_failHere_bind _
            · exact zero p
  refine yields_peek ?_
  split
  · exact outside_take ‹_› (by decide) fun p => digits _ p
  · exact outside_take ‹_› (by decide) fun p => digits _ p
  · exact digits _ p

theorem outside_numberEnd : KeepsOutside (numberEnd positive significand exponent) p := by
  refine yields_peek ?_
  split
  · exact outside_exponentPart ‹_› (by decide)
  · exact outside_exponentPart ‹_› (by decide)
  · exact outside_scaled

theorem outside_fractionPart (head : p.rest.head? = some c) (bare : Bare c) :
    KeepsOutside (fractionPart positive significand exponent) p := by
  refine outside_take head bare fun p => outside_bind ?_ fun ⟨_, _, _⟩ p => ?_
  · refine keeps_repeating fun _ p => yields_peek ?_
    split
    · split
      · exact keeps_pure
      · exact outside_digit ‹_› fun _ => keeps_pure
    · exact keeps_pure
  · dsimp only
    split
    · exact outside_bind outside_skipDigits fun _ p => outside_numberEnd
    · split
      · refine yields_peek ?_
        split <;> exact yields_failNext _
      · exact outside_numberEnd

theorem outside_longInteger : KeepsOutside (longInteger positive significand) p := by
  refine outside_bind ?_ fun _ p => yields_peek ?_
  · refine keeps_repeating fun _ p => yields_peek ?_
    split
    · exact outside_digit ‹_› fun _ => keeps_pure
    · exact keeps_pure
  · split
    · exact outside_fractionPart ‹_› (by decide)
    · exact outside_numberEnd

theorem outside_wholeEnd : KeepsOutside (readNumber.wholeEnd positive significand) p := by
  refine yields_peek ?_
  split
  · exact outside_fractionPart ‹_› (by decide)
  · exact outside_exponentPart ‹_› (by decide)
  · exact outside_exponentPart ‹_› (by decide)
  · exact keeps_pure

theorem outside_readNumber : KeepsOutside (readNumber positive) p := by
  refine yields_peek ?_
  split
  · exact yields_failHere _
  · refine outside_take ‹_› (by decide) fun p => yields_peek ?_
    split
    · exact yields_failNext _
    · exact outside_wholeEnd
  · split
    · exact yields_failNext _
    · refine outside_take ‹_› (bare_of_digit? ‹_›) fun p => outside_bind ?_ fun ⟨_, _⟩ p => ?_
      · refine keeps_repeating fun _ p => yields_peek ?_
        split
        · split
          · exact keeps_pure
          · exact outside_digit ‹_› fun _ => keeps_pure
        · exact keeps_pure
      · dsimp only
        split
        · exact outside_longInteger
        · exact outside_wholeEnd

end

/-! ## Strings -/

theorem plain_of_hexDigit? {d : Nat} (digit : hexDigit? c = some d) : c ≠ '\\' ∧ c ≠ '\x22' := by
  refine ⟨?_, ?_⟩ <;> rintro rfl <;> cases digit

theorem bad_ne_ok {n : Nat} {q : Cursor} : hexCode.bad p q ≠ .ok (n, p') := by
  intro read
  rw [hexCode.bad] at read
  split at read <;> cases read

theorem hexCode_short (short : p.rest.length < 4) : hexCode p = hexCode.bad p p := by
  obtain ⟨_ | ⟨a, _ | ⟨b, _ | ⟨c, _ | ⟨d, rest⟩⟩⟩⟩, line, column⟩ := p
  iterate 4 rfl
  simp only [List.length_cons] at short
  omega

theorem hexCode_four (a b c d : Char) (rest : List Char) (line column : Nat) :
    hexCode ⟨a :: b :: c :: d :: rest, line, column⟩ =
      match hexDigit? a, hexDigit? b, hexDigit? c, hexDigit? d with
      | some x, some y, some z, some t =>
        .ok (((x * 16 + y) * 16 + z) * 16 + t, ⟨rest, line, column + 4⟩)
      | _, _, _, _ =>
        hexCode.bad ⟨a :: b :: c :: d :: rest, line, column⟩
          ⟨a :: b :: c :: d :: rest, line, column⟩ := by
  show (match hexDigit? a, hexDigit? b, hexDigit? c, hexDigit? d with
    | some a, some b, some c, some d => (do
        set (⟨rest, line, column + 4⟩ : Cursor)
        return ((a * 16 + b) * 16 + c) * 16 + d : Reader Nat)
    | _, _, _, _ => hexCode.bad ⟨a :: b :: c :: d :: rest, line, column⟩)
      ⟨a :: b :: c :: d :: rest, line, column⟩ = _
  cases hexDigit? a <;> cases hexDigit? b <;> cases hexDigit? c <;> cases hexDigit? d <;> rfl

/-- Four hexadecimal digits are no quotes. -/
theorem keeps_hexCode : Keeps .quoted .quoted hexCode p := by
  intro n p' read
  obtain ⟨_ | ⟨a, _ | ⟨b, _ | ⟨c, _ | ⟨d, rest⟩⟩⟩⟩, line, column⟩ := p
  iterate 4 exact (bad_ne_ok ((hexCode_short (by simp)).symm.trans read)).elim
  rw [hexCode_four] at read
  split at read
  · next ha hb hc hd =>
    cases read
    exact (Passes.cons (doubleQuotes_quoted (plain_of_hexDigit? ha)) _).trans
      ((Passes.cons (doubleQuotes_quoted (plain_of_hexDigit? hb)) _).trans
        ((Passes.cons (doubleQuotes_quoted (plain_of_hexDigit? hc)) _).trans
          (Passes.cons (doubleQuotes_quoted (plain_of_hexDigit? hd)) _)))
  · exact (bad_ne_ok read).elim

theorem rest_of_pairMark {mark : Char} {u : Unit} (read : codeEscape.pairMark mark p = .ok (u, p')) :
    p.rest = mark :: p'.rest := by
  obtain ⟨text, line, column⟩ := p
  cases text with
  | nil => cases read
  | cons c rest =>
    replace read : (if c = mark then skip else do
        modify fun p => p.past c 1 p.rest.tail
        failHere .unfinishedEscape) ⟨c :: rest, line, column⟩ = .ok (u, p') := read
    split at read
    · next same =>
      cases read
      rw [rest_past, same]
    · cases read

theorem keeps_codeEscape : Keeps .quoted .quoted codeEscape p := by
  refine keeps_bind keeps_hexCode fun first p => ?_
  split
  · exact yields_failHere _
  · split
    · exact keeps_pure
    · intro c p' read
      obtain ⟨_, q, mark, read⟩ := bind_eq_ok_iff.mp read
      obtain ⟨_, q', mark', read⟩ := bind_eq_ok_iff.mp read
      obtain ⟨second, q'', code, read⟩ := bind_eq_ok_iff.mp read
      have pair : Passes .quoted .quoted p.rest q'.rest := by
        rw [rest_of_pairMark mark, rest_of_pairMark mark']
        exact ⟨['\\', 'u'], rfl, doubleQuotes_escaped 'u'⟩
      refine pair.trans ((keeps_hexCode second q'' code).trans ?_)
      split at read
      · cases read
      · rw [← (Prod.mk.inj (Except.ok.inj read)).2]
        exact .refl ..

/-- What stands behind a backslash is kept with it. -/
theorem yields_escape :
    Yields escape p fun _ p' => Passes .quoted .quoted ('\\' :: p.rest) p'.rest := by
  refine yields_bind yields_next fun next q taken => ?_
  cases next with
  | none => exact yields_failHere _
  | some c =>
    have pair : Passes .quoted .quoted ('\\' :: p.rest) q.rest := by
      rw [taken c rfl]
      exact ⟨['\\', c], rfl, doubleQuotes_escaped c⟩
    refine Keeps.behind ?_ pair
    split
    · exact yields_failHere _
    iterate 8 exact keeps_pure
    · exact keeps_codeEscape
    · split
      · exact yields_bind (fun _ _ _ => trivial) fun _ _ _ => yields_failHere _
      · exact yields_failHere _

/-- A string is read up to the quote that closes it. -/
theorem keeps_readString : Keeps .quoted .outside readString p := by
  refine yields_repeating (Passes .quoted .quoted p.rest ·.rest) (fun chars q passed => ?_) (.refl ..)
  refine yields_bind yields_next fun next q' taken => ?_
  split
  · exact yields_failHere _
  · rw [taken '\x22' rfl] at passed
    exact yields_pure (passed.trans (.cons doubleQuotes_closing _))
  · rw [taken '\\' rfl] at passed
    exact yields_bind yields_escape fun _ _ escaped => yields_pure (passed.trans escaped)
  · next c notQuote notBackslash =>
    split
    · exact yields_failHere _
    · rw [taken c rfl] at passed
      exact yields_pure (passed.trans (.cons (doubleQuotes_quoted ⟨notBackslash, notQuote⟩) _))

/-! ## Values -/

/-- Where no other item follows, the list is closed. -/
theorem yields_moreItems {first : Bool} : Yields (moreItems first) p fun more p' =>
    Passes .outside .outside p.rest p'.rest ∧ (more = false → p'.rest.head? = some ']') := by
  refine yields_bind yields_blanks fun next q ⟨passed, head⟩ => ?_
  split
  · exact yields_failNext _
  · exact yields_pure ⟨passed, fun _ => head⟩
  · split
    · exact yields_pure ⟨passed, nofun⟩
    · refine yields_bind (keeps_skip head (doubleQuotes_bare (by decide))) fun _ _ comma =>
        yields_bind yields_blanks fun next _ ⟨passed', _⟩ => ?_
      split
      · exact yields_failNext _
      · exact yields_failNext _
      · exact yields_pure ⟨passed.trans (comma.trans passed'), nofun⟩
  · split
    · exact yields_pure ⟨passed, nofun⟩
    · exact yields_failNext _

/-- Where another member follows, its key is opened, and otherwise the object is closed. -/
theorem yields_moreMembers {first : Bool} : Yields (moreMembers first) p fun more p' =>
    Passes .outside .outside p.rest p'.rest ∧
      p'.rest.head? = some (if more then '\x22' else '\x7d') := by
  refine yields_bind yields_blanks fun next q ⟨passed, head⟩ => ?_
  split
  · exact yields_failNext _
  · exact yields_pure ⟨passed, head⟩
  · split
    · split
      · next same => exact yields_pure ⟨passed, same ▸ head⟩
      · exact yields_failNext _
    · split
      · next same =>
        refine yields_bind (keeps_skip head (doubleQuotes_bare (same ▸ by decide))) fun _ _ comma =>
          yields_bind yields_blanks fun next _ ⟨passed', head'⟩ => ?_
        split
        · exact yields_failNext _
        · exact yields_pure ⟨passed.trans (comma.trans passed'), head'⟩
        · exact yields_failNext _
        · exact yields_failNext _
      · exact yields_failNext _

section

variable {value : Reader Json} (kept : ∀ p, KeepsOutside value p)

include kept

theorem outside_readItems : KeepsOutside (readItems value) p := by
  refine keeps_repeating fun items p =>
    yields_bind yields_moreItems fun more q ⟨passed, closing⟩ => ?_
  cases more with
  | true => exact (outside_bind (kept q) fun _ _ => keeps_pure).behind passed
  | false => exact (outside_take (closing rfl) (by decide) fun _ => keeps_pure).behind passed

theorem outside_readMembers : KeepsOutside (readMembers value) p := by
  refine keeps_repeating fun members p =>
    yields_bind yields_moreMembers fun more q ⟨passed, head⟩ => ?_
  cases more with
  | true =>
    refine Keeps.behind ?_ passed
    refine keeps_bind (keeps_skip head doubleQuotes_opening) fun _ p => ?_
    refine keeps_bind keeps_readString fun key p =>
      yields_bind yields_blanks fun next q ⟨passed, head⟩ => ?_
    refine Keeps.behind ?_ passed
    extract_lets item
    have rest (p : Cursor) : KeepsOutside (item ()) p :=
      outside_bind (kept p) fun _ _ => keeps_pure
    split
    · exact outside_take head (by decide) rest
    · exact yields_failNext_bind _
    · exact yields_failNext_bind _
  | false => exact (outside_take head (by decide) fun _ => keeps_pure).behind passed

end

theorem outside_readValue (depth : Nat) : KeepsOutside (readValue depth) p := by
  induction depth generalizing p with
  | zero => exact yields_failNext _
  | succ depth ih =>
    refine yields_bind yields_blanks fun next q ⟨passed, head⟩ => ?_
    refine Keeps.behind ?_ passed
    split
    · exact yields_failNext _
    iterate 3
      exact outside_take head (by decide) fun _ =>
        outside_bind (outside_letters (by simp [Bare])) fun _ _ => keeps_pure
    · exact outside_take head (by decide) fun _ =>
        outside_bind outside_readNumber fun _ _ => keeps_pure
    · exact keeps_bind (keeps_skip head doubleQuotes_opening) fun _ _ =>
        keeps_bind keeps_readString fun _ _ => keeps_pure
    · split
      · exact yields_failNext_bind _
      · exact outside_take head (by decide) fun _ =>
          outside_bind (outside_readItems fun _ => ih) fun _ _ => keeps_pure
    · split
      · exact yields_failNext_bind _
      · exact outside_take head (by decide) fun _ =>
          outside_bind (outside_readMembers fun _ => ih) fun _ _ => keeps_pure
    · split
      · exact outside_bind outside_readNumber fun _ _ => keeps_pure
      · exact yields_failNext _

/-- Behind a document nothing is left. -/
theorem yields_document : Yields document p fun _ _ => Passes .outside .outside p.rest [] := by
  refine yields_bind (outside_readValue maxDepth) fun json q passed =>
    yields_bind yields_blanks fun next q' ⟨passed', head⟩ => ?_
  split
  · exact yields_failNext _
  · rw [List.head?_eq_none_iff.mp head] at passed'
    exact yields_pure (passed.trans passed')

/-- A text that is read as it stands has no single-quoted strings. -/
theorem doubleQuotes_of_ofText {text : String} {json : Json} (read : ofText text = .ok json) :
    doubleQuotes .outside text.toList = text.toList := by
  have read : Prod.fst <$> document ⟨text.toList, 1, 0⟩ = .ok json := read
  cases done : document ⟨text.toList, 1, 0⟩ with
  | error =>
    rw [done] at read
    cases read
  | ok result =>
    obtain ⟨taken, same, kept⟩ := yields_document result.1 result.2 done
    rw [List.append_nil] at same
    have kept := kept []
    rw [List.append_nil] at kept
    rw [show text.toList = taken from same, kept]
    exact List.append_nil taken

end ScriptEngine.Json
