import ScriptEngine.Proofs.Token.Scanning

/-!
# Tokens tile the source

A source that is split into tokens is made of their lexemes, in their order, and of blanks and whole
comments between them. Every token says where it stands, and so does the fault of a source that cannot
be split.

* `Position.after`: the place behind some characters, by its line breaks.
* `Gap`, `skipped`: blanks and whole comments, which is what is skipped.
* `Tiled`, `Fault`, `split_of_tiled`: the tokens read so far make up the front of a source, up to its
  end or a fault.
* `Tiles`, `Faulty`: what the tokens of a source say, and what a fault does.
* `ofSource_tiles`: so it is for every source.
-/

namespace ScriptEngine

/-! ## Places -/

/-- The place behind some characters: one line more than there are line breaks, and one column more
than there are characters since the last one. -/
def Position.after (before : List Char) : Position where
  line := 1 + before.count '\n'
  column := 1 + (before.reverse.takeWhile (· ≠ '\n')).length
  offset := before.length

theorem Position.next_after (before : List Char) (c : Char) :
    (after before).next c = after (before ++ [c]) := by
  unfold next
  split
  · next linebreak =>
    subst linebreak
    simp [after, Nat.add_comm, Nat.add_left_comm]
  · next other => simp [after, other, Nat.add_comm]

theorem Position.advance_after (before more : List Char) :
    (after before).advance more = after (before ++ more) := by
  induction more generalizing before with
  | nil => rw [List.append_nil]; rfl
  | cons c more ih =>
    have step : (after before).advance (c :: more) = ((after before).next c).advance more := rfl
    rw [step, next_after, ih, List.append_assoc, List.singleton_append]

namespace Token

/-! ## Gaps -/

/-- Blanks and whole comments. A line comment goes on to the end of its line, or of the source if the
gap is at its end; a block comment to the first end mark. -/
inductive Gap (last : Prop) : List Char → Prop
  | nil : Gap last []
  | blank {c : Char} {text : List Char} : Text.isBlank c = true → Gap last text →
    Gap last (c :: text)
  | line {comment text : List Char} : '\n' ∉ comment → Gap last text →
    Gap last ('/' :: '/' :: (comment ++ '\n' :: text))
  | lastLine {comment : List Char} : last → '\n' ∉ comment → Gap last ('/' :: '/' :: comment)
  | block {comment text : List Char} : ¬ ['*', '/'] <:+: comment → Gap last text →
    Gap last ('/' :: '*' :: (comment ++ '*' :: '/' :: text))

theorem Gap.mono {last last' : Prop} {text : List Char} (h : Gap last text) (imp : last → last') :
    Gap last' text := by
  induction h with
  | nil => exact .nil
  | blank blank _ ih => exact .blank blank ih
  | line comment _ ih => exact .line comment ih
  | lastLine ended comment => exact .lastLine (imp ended) comment
  | block comment _ ih => exact .block comment ih

/-- An end mark is at the front of a text only where a comment's body ends. -/
theorem not_prefix_of_open {c : Char} {text : List Char}
    (open_ : ∀ rest, c = '*' → text = '/' :: rest → False) : ¬ ['*', '/'] <+: c :: text := by
  rintro ⟨more, same⟩
  obtain ⟨rfl, behind⟩ := List.cons.inj same
  exact open_ more rfl behind.symm

/-- A comment ends with the first end mark. -/
theorem exists_of_commentBody? {text body rest : List Char}
    (h : commentBody? text = some (body, rest)) :
    ∃ comment, body = comment ++ ['*', '/'] ∧ ¬ ['*', '/'] <:+: comment := by
  induction text using commentBody?.induct generalizing body rest with
  | case1 => simp [commentBody?] at h
  | case2 text =>
    simp only [commentBody?, Option.some.injEq, Prod.mk.injEq] at h
    exact ⟨[], h.1.symm, by simp⟩
  | case3 c text open_ ih =>
    rw [commentBody?.eq_3 c text open_] at h
    obtain ⟨⟨body', rest'⟩, inside, same⟩ := Option.map_eq_some_iff.mp h
    obtain ⟨rfl, rfl⟩ := Prod.mk.inj same
    obtain ⟨comment, rfl, whole⟩ := ih inside
    refine ⟨c :: comment, rfl, fun closes => ?_⟩
    rcases List.infix_cons_iff.mp closes with front | inner
    · have split := append_of_commentBody? inside
      rw [List.append_assoc] at split
      have longer : c :: comment <+: c :: text :=
        (List.prefix_cons_inj c).mpr ⟨_, split⟩
      exact not_prefix_of_open open_ (front.trans longer)
    · exact whole inner

/-- A comment that does not end has no end mark in it. -/
theorem not_infix_of_commentBody? {text : List Char} (h : commentBody? text = none) :
    ¬ ['*', '/'] <:+: text := by
  induction text using commentBody?.induct with
  | case1 => simp
  | case2 text => simp [commentBody?] at h
  | case3 c text open_ ih =>
    rw [commentBody?.eq_3 c text open_, Option.map_eq_none_iff] at h
    intro closes
    rcases List.infix_cons_iff.mp closes with front | inner
    · exact not_prefix_of_open open_ front
    · exact ih h inner

/-- A line comment goes on to a line break, or to the end. -/
theorem not_mem_takeWhile_line (text : List Char) : '\n' ∉ text.takeWhile (· != '\n') := by
  intro mem
  have passes := List.all_eq_true.mp (List.all_takeWhile (p := (· != '\n')) (l := text)) _ mem
  cases passes

theorem eq_of_dropWhile_line {text more : List Char} {c : Char}
    (h : text.dropWhile (· != '\n') = c :: more) : c = '\n' := by
  have stopped := List.head_dropWhile_not (· != '\n') (l := text) (by simp [h])
  simpa only [h, List.head_cons, bne_eq_false_iff_eq] using stopped

section

variable {position : Position} {rest : List Char}

theorem skipBlanks_endless (open_ : commentBody? rest = none) :
    skipBlanks position ('/' :: '*' :: rest) = .error (.unterminatedComment position) := by
  rw [skipBlanks.eq_2]
  split
  · rfl
  · next closed => cases open_.symm.trans closed

theorem skipBlanks_comment {body after : List Char} (closed : commentBody? rest = some (body, after)) :
    skipBlanks position ('/' :: '*' :: rest) =
      skipBlanks (position.advance ('/' :: '*' :: body)) after := by
  rw [skipBlanks.eq_2]
  split
  · next open_ => cases closed.symm.trans open_
  · next closed' =>
    obtain ⟨rfl, rfl⟩ := Prod.mk.inj (Option.some.inj (closed.symm.trans closed'))
    rfl

end

/-- What skipping blanks and comments comes to: a gap and what stands behind it, or a gap and a comment
that does not end. -/
inductive Skipped (position : Position) : List Char → Except LexError (Position × List Char) → Prop
  | stands {gap text : List Char} : Gap (text = []) gap → Stands text →
    Skipped position (gap ++ text) (.ok (position.advance gap, text))
  | endless {gap inside : List Char} : Gap False gap → ¬ ['*', '/'] <:+: inside →
    Skipped position (gap ++ '/' :: '*' :: inside)
      (.error (.unterminatedComment (position.advance gap)))

section

variable {position : Position} {front text : List Char}
  {result : Except LexError (Position × List Char)}

/-- What is skipped in front makes the gap longer. -/
theorem Skipped.prepend (h : Skipped (position.advance front) text result)
    (longer : ∀ last gap rest, text = gap ++ rest → (rest = [] → last) →
      (∀ c more, rest = c :: more → Text.isBlank c = false) → Gap last gap →
        Gap last (front ++ gap)) : Skipped position (front ++ text) result := by
  have moved : ∀ gap, (position.advance front).advance gap = position.advance (front ++ gap) :=
    fun gap => List.foldl_append.symm
  cases h with
  | stands isGap stands =>
    rw [← List.append_assoc, moved]
    exact .stands (longer _ _ _ rfl id stands.solid isGap) stands
  | endless isGap open_ =>
    rw [← List.append_assoc, moved]
    refine .endless (longer _ _ _ rfl nofun ?_ isGap) open_
    rintro c more same
    obtain ⟨rfl, -⟩ := List.cons.inj same
    rfl

/-- A line comment is skipped with the line break behind it, which is a blank. -/
theorem Gap.line_of_append {last : Prop} {comment gap rest : List Char} (inside : '\n' ∉ comment)
    (stops : ∀ c more, gap ++ rest = c :: more → c = '\n') (ended : rest = [] → last)
    (solid : ∀ c more, rest = c :: more → Text.isBlank c = false) (isGap : Gap last gap) :
    Gap last ('/' :: '/' :: comment ++ gap) := by
  cases gap with
  | nil =>
    rw [List.append_nil]
    cases rest with
    | nil => exact .lastLine (ended rfl) inside
    | cons c more =>
      obtain rfl := stops c more rfl
      cases solid '\n' more rfl
  | cons c gap =>
    obtain rfl := stops c _ rfl
    cases isGap with
    | blank _ isGap => exact .line inside isGap

end

/-- Blanks and comments are skipped up to what stands behind them. -/
theorem skipped (position : Position) (text : List Char) :
    Skipped position text (skipBlanks position text) := by
  induction position, text using skipBlanks.induct with
  | case1 position rest ih =>
    rw [skipBlanks.eq_1]
    have whole := List.takeWhile_append_dropWhile (p := (· != '\n')) (l := rest)
    have longer := ih.prepend fun last gap rest' split ended solid isGap =>
      Gap.line_of_append (not_mem_takeWhile_line rest)
        (fun c more same => eq_of_dropWhile_line (split.trans same)) ended solid isGap
    rwa [List.cons_append, List.cons_append, whole] at longer
  | case2 position rest open_ =>
    rw [skipBlanks_endless open_]
    exact .endless .nil (not_infix_of_commentBody? open_)
  | case3 position rest body after closed ih =>
    obtain ⟨comment, rfl, whole⟩ := exists_of_commentBody? closed
    have longer := ih.prepend fun last gap _ _ _ _ isGap => by
      simpa using Gap.block whole isGap
    have whole := append_of_commentBody? closed
    rw [skipBlanks_comment closed, ← whole]
    exact longer
  | case4 position c rest line block blank ih =>
    rw [skipBlanks.eq_3 position c rest line block, if_pos blank]
    have behind : Skipped (position.advance [c]) rest _ := ih
    exact behind.prepend fun _ _ _ _ _ _ isGap => .blank blank isGap
  | case5 position c rest line block solid =>
    rw [skipBlanks.eq_3 position c rest line block, if_neg solid]
    refine .stands .nil ⟨?_, ?_, ?_⟩
    · intro c' rest' same
      obtain ⟨rfl, -⟩ := List.cons.inj same
      exact Bool.eq_false_iff.mpr solid
    · intro more same
      obtain ⟨first, second⟩ := List.cons.inj same
      exact line more first second
    · intro more same
      obtain ⟨first, second⟩ := List.cons.inj same
      exact block more first second
  | case6 position =>
    rw [skipBlanks.eq_4]
    exact .stands .nil .nil

/-! ## Tokens -/

/-- The tokens read so far make up the front of a source: their lexemes in their order, none of them
empty, and gaps in front of them. Each says where it begins and ends. -/
inductive Tiled : List Char → List Token → Prop
  | start : Tiled [] []
  | token {before gap lexeme : List Char} {tokens : List Token} {kind : TokenKind} :
    Tiled before tokens → Gap False gap → lexeme ≠ [] → kind ≠ .finish →
    Tiled (before ++ gap ++ lexeme) (tokens ++
      [⟨kind, String.ofList lexeme, .after (before ++ gap), (before ++ gap ++ lexeme).length⟩])

/-- What is wrong with a source that is right up to some place: a string that opens there and does not
end, or has an escape in it that is none, a comment that does not end, or a character that begins no
token. -/
inductive Fault (before : List Char) : List Char → LexError → Prop
  | string {quote : Char} {inside : List Char} : quote = '\x22' ∨ quote = '\'' →
    Fault before (quote :: inside) (.unterminatedString (.after before))
  | escape {quote c : Char} {inside behind : List Char} : quote = '\x22' ∨ quote = '\'' →
    Fault before (quote :: inside ++ '\\' :: c :: behind)
      (.invalidEscape c (.after (before ++ quote :: inside ++ ['\\'])))
  | comment {inside : List Char} : ¬ ['*', '/'] <:+: inside →
    Fault before ('/' :: '*' :: inside) (.unterminatedComment (.after before))
  | character {c : Char} {behind : List Char} :
    Fault before (c :: behind) (.illegalCharacter c (.after before))

/-- What reading a source comes to: tokens up to its end, or a fault behind some of them. -/
inductive Split (source : List Char) : Except LexError (List Token) → Prop
  | whole {before gap : List Char} {words : List Token} : Tiled before words → Gap True gap →
    before ++ gap = source →
    Split source (.ok (words ++ [⟨.finish, "", .after source, source.length⟩]))
  | fault {before gap rest : List Char} {words : List Token} {e : LexError} : Tiled before words →
    Gap False gap → Fault (before ++ gap) rest e → before ++ gap ++ rest = source →
    Split source (.error e)

/-! ### Escapes -/

/-- Where the escape stands that is being read, if one is. -/
def StringState.Placed (opening inside : List Char) : StringState → Prop
  | .plain => True
  | .escape => ∃ front, inside = front ++ ['\\']
  | .codeOpen e | .code e _ => ∃ front more, inside = front ++ '\\' :: 'u' :: more ∧
    e = .after (opening ++ front ++ ['\\'])

/-- A string that cannot be read does not end, or has an escape in it that is none. -/
theorem fault_of_stringBody {quote : Char} {start : Position}
    {opening inside value taken text : List Char} (state : StringState) {e : LexError}
    (placed : state.Placed opening inside)
    (h : stringBody quote start (.after (opening ++ inside)) value taken state text = .error e) :
    e = .unterminatedString start ∨ ∃ front c behind, inside ++ text = front ++ '\\' :: c :: behind ∧
      e = .invalidEscape c (.after (opening ++ front ++ ['\\'])) := by
  induction text generalizing inside value taken state with
  | nil =>
    cases state with
    | plain | escape => exact .inl (Except.error.inj h).symm
    | codeOpen | code =>
      obtain ⟨front, more, rfl, rfl⟩ := placed
      exact .inr ⟨front, 'u', more, by simp, (Except.error.inj h).symm⟩
  | cons c text ih =>
    have moved : (Position.after (opening ++ inside)).next c =
        .after (opening ++ (inside ++ [c])) := by
      rw [Position.next_after, List.append_assoc]
    have split : inside ++ c :: text = inside ++ [c] ++ text := by simp
    rw [split]
    cases state with
    | plain =>
      rw [stringBody] at h
      split at h
      · cases h
      · split at h
        · next backslash =>
          subst backslash
          exact ih .escape ⟨inside, rfl⟩ (moved ▸ h)
        · exact ih .plain trivial (moved ▸ h)
    | escape =>
      obtain ⟨front, rfl⟩ := placed
      rw [stringBody] at h
      split at h
      · next byCode =>
        subst byCode
        refine ih (.codeOpen _) ⟨front, [], by simp, ?_⟩ (moved ▸ h)
        rw [List.append_assoc]
      · split at h
        · exact ih .plain trivial (moved ▸ h)
        · refine .inr ⟨front, c, text, by simp, ?_⟩
          rw [List.append_assoc]
          exact (Except.error.inj h).symm
    | codeOpen e =>
      obtain ⟨front, more, rfl, rfl⟩ := placed
      rw [stringBody] at h
      split at h
      · exact ih (.code _ _) ⟨front, more ++ [c], by simp, rfl⟩ (moved ▸ h)
      · exact .inr ⟨front, 'u', more ++ c :: text, by simp, (Except.error.inj h).symm⟩
    | code e digits =>
      obtain ⟨front, more, rfl, rfl⟩ := placed
      rw [stringBody] at h
      split at h
      · split at h
        · exact ih .plain trivial (moved ▸ h)
        · exact .inr ⟨front, 'u', more ++ c :: text, by simp, (Except.error.inj h).symm⟩
      · exact ih (.code _ _) ⟨front, more ++ [c], by simp, rfl⟩ (moved ▸ h)

/-- A token that cannot be read has a fault where it begins. -/
theorem fault_of_scan {dot : Bool} {before text : List Char} {e : LexError}
    (h : scan dot (.after before) text = .error e) : Fault before text e := by
  cases text with
  | nil => cases h
  | cons c rest =>
    rw [scan] at h
    split at h
    · next quote =>
      have quote : c = '\x22' ∨ c = '\'' := by simpa using quote
      rw [Position.next_after, ← List.append_nil (before ++ [c])] at h
      rcases fault_of_stringBody .plain trivial h with rfl | ⟨front, d, behind, same, rfl⟩
      · exact .string quote
      · obtain rfl : rest = _ := same
        rw [List.append_assoc before [c] front]
        exact .escape quote
    · split at h
      · cases h
      · split at h
        · cases h
        · split at h
          · cases h
          · obtain rfl := Except.error.inj h
            exact .character

section

variable {dot : Bool} {position position' : Position} {text : List Char} {tokens : List Token}
  {fuel : Nat}

/-- A token is read behind what is skipped. -/
theorem scanAll_token {c : Char} {rest : List Char} {s : Scan}
    (skips : skipBlanks position text = .ok (position', c :: rest))
    (scanned : scan dot position' (c :: rest) = .ok s) :
    scanAll dot position text tokens (fuel + 1) =
      scanAll (s.kind = .mark .dot) (position'.advance s.taken) s.rest
        (ofScan position' s :: tokens) fuel := by
  rw [scanAll, skips]
  simp [bind, Except.bind, scanned]

/-- Where nothing is left the last token is read. -/
theorem scanAll_finish (skips : skipBlanks position text = .ok (position', [])) :
    scanAll dot position text tokens (fuel + 1) =
      .ok (tokens.reverse ++ [⟨.finish, "", position', position'.offset⟩]) := by
  rw [scanAll, skips]
  simp [bind, Except.bind, scan, ofScan, Position.advance]

end

/-- The tokens read, and what is left, are the source. -/
theorem split_of_tiled {source before text : List Char} {words : List Token} {fuel : Nat}
    (tiled : Tiled before words) (left : before ++ text = source) (enough : text.length < fuel)
    (dot : Bool) : Split source (scanAll dot (.after before) text words.reverse fuel) := by
  induction fuel generalizing before text words dot with
  | zero => omega
  | succ fuel ih =>
    obtain ⟨skips, result⟩ : ∃ skips, skipBlanks (.after before) text = skips := ⟨_, rfl⟩
    have gap := skipped (.after before) text
    rw [result] at gap
    cases gap with
    | endless isGap open_ =>
      rw [scanAll, result, Position.advance_after]
      rw [← List.append_assoc] at left
      exact .fault tiled isGap (.comment open_) left
    | @stands gap text isGap stands =>
      rw [Position.advance_after] at result
      rw [← List.append_assoc] at left
      cases text with
      | nil =>
        rw [scanAll_finish result, List.reverse_reverse]
        rw [List.append_nil] at left
        have last := Split.whole tiled (isGap.mono fun _ => trivial) left
        rwa [← left] at last ⊢
      | cons c rest =>
        have solid := isGap.mono (List.cons_ne_nil c rest)
        cases scanned : scan dot (.after (before ++ gap)) (c :: rest) with
        | error e =>
          rw [scanAll, result]
          simp only [bind, Except.bind, scanned]
          exact .fault tiled solid (fault_of_scan scanned) left
        | ok s =>
          have steady := steady_of_scan (List.cons_ne_nil c rest) scanned
          have shorter : s.rest.length < fuel := by
            have within := steady.shorter
            rw [List.length_append] at enough
            omega
          have place : ofScan (.after (before ++ gap)) s = ⟨s.kind, String.ofList s.taken,
              .after (before ++ gap), (before ++ gap ++ s.taken).length⟩ := by
            rw [ofScan, Position.advance_after]
            rfl
          rw [scanAll_token result scanned, Position.advance_after, place]
          have left : before ++ gap ++ s.taken ++ s.rest = source := by
            rw [List.append_assoc, ← steady.split, left]
          have more := ih (tiled.token solid steady.ne_nil steady.kind) left shorter
            (s.kind = .mark .dot)
          rwa [List.reverse_append] at more

/-! ## What tokens and faults say -/

/-- The characters between two offsets. -/
def between (source : List Char) (first last : Nat) : List Char :=
  (source.take last).drop first

theorem between_append (before part behind : List Char) :
    between (before ++ part ++ behind) before.length (before ++ part).length = part := by
  rw [between, List.take_left, List.drop_left]

/-- A token stands where it says: its lexeme is what stands between its offsets, and its line and
column are those of the first of them. -/
structure Placed (t : Token) (source : List Char) : Prop where
  place : t.position = .after (source.take t.position.offset)
  lexeme : t.lexeme.toList = between source t.position.offset t.stop
  le : t.position.offset ≤ t.stop
  within : t.stop ≤ source.length

/-- The offset that some tokens go up to. -/
def stopOf (tokens : List Token) : Nat :=
  (tokens.getLast?.map (·.stop)).getD 0

/-- Tokens tile a source: they are in their order, with gaps between them, and the last of them, and
only that, is the end of the source. -/
structure Tiles (source : List Char) (tokens : List Token) : Prop where
  finish : ∃ words, tokens = words ++ [⟨.finish, "", .after source, source.length⟩] ∧
    ∀ word ∈ words, word.kind ≠ .finish ∧ word.lexeme ≠ ""
  placed : ∀ t ∈ tokens, t.Placed source
  ordered : tokens.Pairwise (·.stop ≤ ·.position.offset)
  /-- A line comment without a line break is in front of the end only. -/
  gaps : ∀ before t after, tokens = before ++ t :: after →
    Gap (t.kind = .finish) (between source (stopOf before) t.position.offset)

/-- A source is at fault behind some tokens and a gap, where the fault says. -/
structure Faulty (source : List Char) (e : LexError) : Prop where
  place : e.position = .after (source.take e.position.offset)
  within : e.position.offset < source.length
  fault : ∃ words before gap rest, Tiled before words ∧ Gap False gap ∧
    Fault (before ++ gap) rest e ∧ before ++ gap ++ rest = source

section

variable {source before : List Char} {words : List Token}

theorem stopOf_concat (tokens : List Token) (t : Token) : stopOf (tokens ++ [t]) = t.stop := by
  simp [stopOf]

theorem Tiled.stopOf_eq (h : Tiled before words) : stopOf words = before.length := by
  cases h with
  | start => rfl
  | token => rw [stopOf_concat]

/-- Tokens stand where they say in every source that they are the front of. -/
theorem Tiled.placed (h : Tiled before words) (front : before <+: source) :
    ∀ t ∈ words, t.Placed source ∧ t.kind ≠ .finish ∧ t.lexeme ≠ "" := by
  induction h with
  | start => nofun
  | @token before gap lexeme tokens kind _ _ ne_nil kind_ne ih =>
    intro t mem
    obtain ⟨behind, rfl⟩ := front
    rcases List.mem_append.mp mem with earlier | last
    · apply ih _ t earlier
      rw [List.append_assoc, List.append_assoc]
      exact List.prefix_append before _
    · obtain rfl := List.mem_singleton.mp last
      refine ⟨⟨?_, ?_, ?_, ?_⟩, kind_ne, ?_⟩
      · have front : (before ++ gap ++ lexeme ++ behind).take (before ++ gap).length =
            before ++ gap := by
          rw [List.append_assoc, List.take_left]
        exact congrArg Position.after front.symm
      · rw [String.toList_ofList]
        exact (between_append (before ++ gap) lexeme behind).symm
      · exact (List.prefix_append (before ++ gap) lexeme).length_le
      · exact (List.prefix_append (before ++ gap ++ lexeme) behind).length_le
      · intro empty
        apply ne_nil
        simpa using congrArg String.toList empty

theorem Tiled.ordered (h : Tiled before words) :
    words.Pairwise (·.stop ≤ ·.position.offset) := by
  induction h with
  | start => exact .nil
  | @token before gap lexeme tokens kind tiled _ _ _ ih =>
    refine List.pairwise_append.mpr ⟨ih, List.pairwise_singleton _ _, ?_⟩
    intro t mem last isLast
    obtain rfl := List.mem_singleton.mp isLast
    have within := (tiled.placed List.prefix_rfl t mem).1.within
    exact Nat.le_trans within (List.prefix_append before gap).length_le

/-- In front of every token is a gap. -/
theorem Tiled.gaps (h : Tiled before words) (front : before <+: source) {earlier later : List Token}
    {t : Token} (split : words = earlier ++ t :: later) :
    Gap False (between source (stopOf earlier) t.position.offset) := by
  induction h generalizing later with
  | start => simp at split
  | @token before gap lexeme tokens kind tiled isGap _ _ ih =>
    obtain ⟨behind, rfl⟩ := front
    rcases List.eq_nil_or_concat later with rfl | ⟨later, last, rfl⟩
    · obtain ⟨rfl, same⟩ := List.append_inj' split rfl
      obtain ⟨rfl, -⟩ := List.cons.inj same
      have skipped := between_append before gap (lexeme ++ behind)
      rw [← List.append_assoc] at skipped
      rw [tiled.stopOf_eq]
      exact skipped.symm ▸ isGap
    · rw [List.concat_eq_append, ← List.cons_append, ← List.append_assoc] at split
      refine ih ?_ (List.append_inj' split rfl).1
      rw [List.append_assoc, List.append_assoc]
      exact List.prefix_append before _

/-- Where a fault is stands a character. -/
theorem Fault.place {e : LexError} {rest : List Char} (h : Fault before rest e) :
    ∃ front c behind, before ++ rest = front ++ c :: behind ∧ e.position = .after front := by
  cases h with
  | string quote => exact ⟨before, _, _, rfl, rfl⟩
  | @escape quote c inside behind =>
    exact ⟨before ++ quote :: inside ++ ['\\'], c, behind, by simp, rfl⟩
  | comment open_ => exact ⟨before, _, _, rfl, rfl⟩
  | character => exact ⟨before, _, _, rfl, rfl⟩

end

/-- The tokens of every source tile it, and every source that has none is at fault where its fault
says. -/
theorem ofSource_tiles (source : String) :
    match ofSource source with
    | .ok tokens => Tiles source.toList tokens
    | .error e => Faulty source.toList e := by
  have split : Split source.toList (ofSource source) :=
    split_of_tiled .start rfl (length_toList_lt source) false
  obtain ⟨result, read⟩ : ∃ result, ofSource source = result := ⟨_, rfl⟩
  obtain ⟨text, same⟩ : ∃ text, source.toList = text := ⟨_, rfl⟩
  rw [read, same] at split ⊢
  cases split with
  | @whole before gap words tiled isGap left =>
    have front : before <+: text := ⟨gap, left⟩
    refine ⟨⟨words, rfl, ?_⟩, ?_, ?_, ?_⟩
    · exact fun word mem => (tiled.placed front word mem).2
    · intro t mem
      rcases List.mem_append.mp mem with word | last
      · exact (tiled.placed front t word).1
      · obtain rfl := List.mem_singleton.mp last
        refine ⟨?_, ?_, Nat.le_refl _, Nat.le_refl _⟩
        · exact congrArg Position.after List.take_length.symm
        · simp [between, Position.after]
    · refine List.pairwise_append.mpr ⟨tiled.ordered, List.pairwise_singleton _ _, ?_⟩
      intro t mem last isLast
      obtain rfl := List.mem_singleton.mp isLast
      exact (tiled.placed front t mem).1.within
    · intro earlier t later split
      rcases List.eq_nil_or_concat later with rfl | ⟨later, last, rfl⟩
      · obtain ⟨rfl, same⟩ := List.append_inj' split rfl
        obtain ⟨rfl, -⟩ := List.cons.inj same
        have skipped := between_append before gap []
        rw [List.append_nil, left] at skipped
        rw [tiled.stopOf_eq]
        exact skipped.symm ▸ isGap.mono fun _ => rfl
      · rw [List.concat_eq_append, ← List.cons_append, ← List.append_assoc] at split
        have isGap := tiled.gaps front (List.append_inj' split rfl).1
        exact isGap.mono False.elim
  | @fault before gap rest words e tiled isGap fault left =>
    obtain ⟨front, c, behind, split, place⟩ := fault.place
    rw [left] at split
    refine ⟨?_, ?_, words, before, gap, rest, tiled, isGap, fault, left⟩
    · rw [place, split]
      exact congrArg Position.after List.take_left.symm
    · rw [place, split]
      simp [Position.after]

end Token

end ScriptEngine
