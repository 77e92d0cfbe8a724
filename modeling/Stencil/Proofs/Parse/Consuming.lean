import Stencil.Proofs.Lexer.Spelling
import Stencil.Proofs.Parse.Stretch
import Stencil.Proofs.Parse.Taking

/-!
# Rules that read given tokens off

Where all tokens up to the end of a template are known, a rule is described by the tokens ahead
before it and after it: it reads some of them off. As for single expressions, either enough levels
of nesting are left and the rule succeeds, or there are too few and it fails for this reason.

A sequence of rules is looked at from its end: the number of levels that it needs is fixed, each
rule needs at most as many, and where the sequence is over it is known that there were enough.
-/

namespace Stencil

/-! ### Tokens up to the end of a template -/

namespace Lexeme

/-- The token at the end of a template. -/
def ending : Lexeme := ⟨.eof, ""⟩

/-- The next one of the tokens ahead. -/
def next (ahead : List Lexeme) : Lexeme :=
  ahead.headD ending

@[simp]
theorem next_nil : next [] = ending := rfl

@[simp]
theorem next_cons (lexeme : Lexeme) (ahead : List Lexeme) : next (lexeme :: ahead) = lexeme := rfl

/-- The text of a name or reserved word. -/
def word? (lexeme : Lexeme) : Option String :=
  match lexeme.kind with
  | .name | .keyword _ => some lexeme.text
  | _ => none

end Lexeme

theorem Token.word?_lexeme (token : Token) : token.lexeme.word? = token.word? := rfl

theorem Token.kind_lexeme (token : Token) : token.lexeme.kind = token.kind := rfl

namespace TokenStream

variable {stream : TokenStream} {cursor : Nat} {lexeme : Lexeme}
  {lexemes first second : List Lexeme}

theorem get_of_map_drop
    (written : (stream.significant.toList.drop cursor).map Token.lexeme = lexeme :: lexemes) :
    cursor < stream.size ∧ (stream.get cursor).lexeme = lexeme ∧
      (stream.significant.toList.drop (cursor + 1)).map Token.lexeme = lexemes := by
  have inside : cursor < stream.size := by
    refine Nat.not_le.1 fun outside => ?_
    rw [List.drop_eq_nil_of_le (by rwa [Array.length_toList])] at written
    simp at written
  rw [drop_eq_cons inside, List.map_cons, List.cons.injEq] at written
  exact ⟨inside, written⟩

/-- The tokens from a place on are given ones, up to the end of the template. -/
def Ahead (stream : TokenStream) (cursor : Nat) (lexemes : List Lexeme) : Prop :=
  (stream.significant.toList.drop cursor).map Token.lexeme = lexemes ++ [.ending]

namespace Ahead

theorem get (ahead : stream.Ahead cursor lexemes) :
    (stream.get cursor).lexeme = .next lexemes := by
  cases lexemes with
  | nil => exact (get_of_map_drop ahead).2.1
  | cons lexeme lexemes => exact (get_of_map_drop ahead).2.1

theorem size_eq (ahead : stream.Ahead cursor lexemes) :
    stream.size = cursor + lexemes.length + 1 := by
  have sameLength := congrArg List.length ahead
  rw [List.length_map, List.length_drop, Array.length_toList, List.length_append,
    List.length_singleton] at sameLength
  rw [size]
  omega

theorem tail (ahead : stream.Ahead cursor (lexeme :: lexemes)) :
    stream.Ahead (cursor + 1) lexemes :=
  (get_of_map_drop ahead).2.2

theorem stands (ahead : stream.Ahead cursor (lexeme :: lexemes)) :
    stream.Stands cursor lexeme := by
  have sameSize := ahead.size_eq
  rw [List.length_cons] at sameSize
  exact ⟨congrArg Lexeme.kind ahead.get, congrArg Lexeme.text ahead.get, by omega⟩

theorem append (ahead : stream.Ahead cursor (first ++ second)) :
    stream.Shows cursor first ∧ stream.Ahead (cursor + first.length) second := by
  induction first generalizing cursor with
  | nil => exact ⟨trivial, ahead⟩
  | cons lexeme first ih =>
      obtain ⟨shows, further⟩ := ih ahead.tail
      rw [Nat.add_assoc, Nat.add_comm 1] at further
      exact ⟨⟨ahead.stands, shows⟩, further⟩

/-- The token after the next one. -/
theorem get_succ (ahead : stream.Ahead cursor lexemes) :
    (stream.get (cursor + 1)).lexeme = .next lexemes.tail := by
  cases lexemes with
  | nil =>
      have sameSize := ahead.size_eq
      rw [List.length_nil] at sameSize
      rw [get_eq_last (by omega), sameSize]
      exact ahead.get
  | cons lexeme lexemes => exact ahead.tail.get

/-- A token at a place among given ones is one of them. -/
theorem get_mem {index : Nat} (ahead : stream.Ahead cursor (first ++ second))
    (inside : index < first.length) : (stream.get (cursor + index)).lexeme ∈ first := by
  have split := List.take_append_drop index first
  rw [← split, List.append_assoc] at ahead
  have here := ahead.append.2.get
  rw [List.length_take, Nat.min_eq_left (Nat.le_of_lt inside),
    List.drop_eq_getElem_cons inside] at here
  exact here ▸ List.getElem_mem inside

theorem isClosed (ahead : stream.Ahead start lexemes) : stream.IsClosed := by
  have sameSize := ahead.size_eq
  rw [← lexemes.append_nil] at ahead
  have atEnd := congrArg Lexeme.kind ahead.append.2.get
  rw [IsClosed, sameSize, Nat.add_sub_cancel]
  exact atEnd

end Ahead

/-- Tokens that are known up to the end of the template. -/
theorem shows_of_map_drop
    (written : (stream.significant.toList.drop cursor).map Token.lexeme =
      lexemes ++ [⟨.eof, ""⟩]) :
    stream.Shows cursor lexemes ∧ (stream.get (cursor + lexemes.length)).kind = .eof := by
  have ahead : stream.Ahead cursor (lexemes ++ []) := by rwa [List.append_nil]
  exact ⟨ahead.append.1, congrArg Lexeme.kind ahead.append.2.get⟩

/-- Given tokens are ahead of a place that is not before `low`. -/
structure At (stream : TokenStream) (low : Nat) (lexemes : List Lexeme) (cursor : Nat) : Prop where
  ahead : stream.Ahead cursor lexemes
  later : low ≤ cursor

/-- Given tokens are ahead of a place that is not before `low`, and a number of constructs is
open. -/
structure AtPlace (stream : TokenStream) (low depth : Nat) (lexemes : List Lexeme) (place : Place) :
    Prop where
  at_ : stream.At low lexemes place.cursor
  depth_eq : place.depth = depth

end TokenStream

/-! ### Sequences and repetitions -/

variable [Limits] {σ α β : Type} {stream : TokenStream} {stands : List Lexeme → σ → Prop}
  {levels needed less : Nat} {ahead middle rest : List Lexeme}

/-- With enough levels of nesting left, a rule leads from some tokens ahead to others and gives a
good value; with fewer levels it is nested too deeply. -/
def Consumes (stream : TokenStream) (stands : List Lexeme → σ → Prop) (levels needed : Nat)
    (ahead rest : List Lexeme) (rule : ReaderT TokenStream (EStateM SyntaxError σ) α)
    (good : α → Prop) : Prop :=
  ∀ state, stands ahead state →
    Meets (fun value after => needed ≤ levels ∧ stands rest after ∧ good value)
      (fun error _ => levels < needed ∧ ∃ span, error = .tooDeep maxDepth span) (rule stream state)

namespace Consumes

variable {rule : ReaderT TokenStream (EStateM SyntaxError σ) α} {good : α → Prop} {goal : β → Prop}

theorem pure {value : α} (enough : needed ≤ levels) (isGood : good value) :
    Consumes stream stands levels needed ahead ahead (Pure.pure value) good :=
  fun _ atTokens => ⟨enough, atTokens, isGood⟩

theorem pure_eq (value : α) :
    Consumes stream stands levels 0 ahead ahead (Pure.pure value) (· = value) :=
  .pure (Nat.zero_le _) rfl

theorem mono {good' : α → Prop}
    (consumes : Consumes stream stands levels needed ahead rest rule good)
    (better : ∀ value, good value → good' value) :
    Consumes stream stands levels needed ahead rest rule good' :=
  fun state atTokens => (consumes state atTokens).mono
    (fun value _ ⟨enough, atRest, isGood⟩ => ⟨enough, atRest, better value isGood⟩)
    fun _ _ => id

/-- More levels may be asked for, if it is known that they are left. -/
theorem raise (consumes : Consumes stream stands levels less ahead rest rule good)
    (fits : less ≤ needed) (enough : less ≤ levels → needed ≤ levels) :
    Consumes stream stands levels needed ahead rest rule good :=
  fun state atTokens => (consumes state atTokens).mono
    (fun _ _ ⟨isEnough, atRest⟩ => ⟨enough isEnough, atRest⟩)
    fun _ _ ⟨tooFew, isDeep⟩ => ⟨Nat.lt_of_lt_of_le tooFew fits, isDeep⟩

/-- A rule is followed by another one that may depend on its value. -/
theorem bind {next : α → ReaderT TokenStream (EStateM SyntaxError σ) β}
    (first : Consumes stream stands levels less ahead middle rule good) (fits : less ≤ needed)
    (second : ∀ value, good value → less ≤ levels →
      Consumes stream stands levels needed middle rest (next value) goal) :
    Consumes stream stands levels needed ahead rest (rule >>= next) goal := by
  intro state atTokens
  refine ((first state atTokens).mono (fun _ _ => id) ?_).bind ?_
  · rintro error _ ⟨tooFew, isDeep⟩
    exact ⟨Nat.lt_of_lt_of_le tooFew fits, isDeep⟩
  · rintro value after ⟨enough, atMiddle, isGood⟩
    exact second value isGood enough after atMiddle

/-- A rule that needs no levels is followed by another one. -/
theorem bind_free {next : α → ReaderT TokenStream (EStateM SyntaxError σ) β}
    (first : Consumes stream stands levels 0 ahead middle rule good)
    (second : ∀ value, good value →
      Consumes stream stands levels needed middle rest (next value) goal) :
    Consumes stream stands levels needed ahead rest (rule >>= next) goal :=
  first.bind (Nat.zero_le _) fun value isGood _ => second value isGood

/-- One of two rules is followed by another one. -/
theorem bind_ite {condition : Prop} [Decidable condition]
    {rule' : ReaderT TokenStream (EStateM SyntaxError σ) α}
    {next : α → ReaderT TokenStream (EStateM SyntaxError σ) β}
    (first : Consumes stream stands levels less ahead middle
      (if condition then rule else rule') good) (fits : less ≤ needed)
    (second : ∀ value, good value → less ≤ levels →
      Consumes stream stands levels needed middle rest (next value) goal) :
    Consumes stream stands levels needed ahead rest
      (if condition then rule >>= next else rule' >>= next) goal := by
  have both := first.bind fits second
  split at both
  · next holds => rwa [if_pos holds]
  · next fails => rwa [if_neg fails]

theorem map {change : α → β} (first : Consumes stream stands levels needed ahead rest rule good)
    (changed : ∀ value, good value → goal (change value)) :
    Consumes stream stands levels needed ahead rest (change <$> rule) goal :=
  fun state atTokens => (first state atTokens).map
    fun value _ ⟨enough, atRest, isGood⟩ => ⟨enough, atRest, changed value isGood⟩

theorem map_eq {change : α → β} {value : α}
    (first : Consumes stream stands levels needed ahead rest rule (· = value)) :
    Consumes stream stands levels needed ahead rest (change <$> rule) (· = change value) :=
  first.map fun _ same => congrArg change same

variable {cursor : σ → Nat}
  {step : α → ReaderT TokenStream (EStateM SyntaxError σ) (ForInStep α)} {value : α}

/-- A repetition is over after a step that asks for nothing more. -/
theorem repeat_done
    (last : Consumes stream stands levels needed ahead rest (step value)
      fun result => ∃ value, result = .done value ∧ good value) :
    Consumes stream stands levels needed ahead rest (repeatFrom cursor step value) good := by
  intro state atTokens
  have meets := last state atTokens
  cases outcome : step value stream state with
  | error error after =>
      rw [repeatFrom_eq_of_error outcome]
      rw [outcome] at meets
      exact meets
  | ok result after =>
      rw [outcome] at meets
      obtain ⟨enough, atRest, value, rfl, isGood⟩ := meets
      rw [repeatFrom_eq_of_done outcome]
      exact ⟨enough, atRest, isGood⟩

/-- A repetition goes on after a step that asks for more and has read a token. -/
theorem repeat_yield {goal : α → Prop}
    (moves : ∀ state after, stands ahead state → stands middle after →
      cursor state < cursor after ∧ cursor state < stream.size)
    (first : Consumes stream stands levels less ahead middle (step value)
      fun result => ∃ more, result = .yield more ∧ good more)
    (fits : less ≤ needed)
    (later : ∀ more, good more → less ≤ levels →
      Consumes stream stands levels needed middle rest (repeatFrom cursor step more) goal) :
    Consumes stream stands levels needed ahead rest (repeatFrom cursor step value) goal := by
  intro state atTokens
  have meets := first state atTokens
  cases outcome : step value stream state with
  | error error after =>
      rw [repeatFrom_eq_of_error outcome]
      rw [outcome] at meets
      exact ⟨Nat.lt_of_lt_of_le meets.1 fits, meets.2⟩
  | ok result after =>
      rw [outcome] at meets
      obtain ⟨enough, atMiddle, more, rfl, isGood⟩ := meets
      obtain ⟨further, inside⟩ := moves state after atTokens atMiddle
      rw [repeatFrom_eq_of_yield outcome further inside]
      exact later more isGood enough after atMiddle

end Consumes

/-! ### Rules over tokens -/

variable {low : Nat} {lexeme : Lexeme}

/-- A rule over tokens reads some of the tokens ahead off. -/
abbrev ReadsOff (stream : TokenStream) (low levels needed : Nat) (ahead rest : List Lexeme)
    (rule : Reading α) (good : α → Prop) : Prop :=
  Consumes stream (stream.At low) levels needed ahead rest rule good

omit [Limits] in
theorem TokenStream.At.further {state after : Nat} (before : stream.At low ahead state)
    (behind : stream.At low rest after) (fewer : rest.length < ahead.length) :
    state < after ∧ state < stream.size := by
  have sizeBefore := before.ahead.size_eq
  have sizeBehind := behind.ahead.size_eq
  omega

namespace ReadsOff

variable {rule : Reading α} {good : α → Prop}

/-- What takes given tokens, whatever stands around them, reads them off. -/
theorem of_takes
    (takes : ∀ start, stream.Shows start ahead →
      (stream.get (start + ahead.length)).lexeme = .next rest →
      Takes levels needed stream rule start (start + ahead.length) good) :
    ReadsOff stream low levels needed (ahead ++ rest) rest rule good := by
  rintro cursor ⟨isAhead, later⟩
  obtain ⟨shows, further⟩ := isAhead.append
  have taken := takes cursor shows further.get
  by_cases enough : needed ≤ levels
  · obtain ⟨value, outcome, isGood⟩ := taken.enough enough
    exact .of_ok outcome ⟨enough, ⟨further, by omega⟩, isGood⟩
  · obtain ⟨span, after, outcome⟩ := taken.tooFew (Nat.not_le.1 enough)
    exact .of_error outcome ⟨Nat.not_le.1 enough, span, rfl⟩

theorem loop_yield {step : α → Reading (ForInStep α)} {value : α} {goal : α → Prop}
    (first : ReadsOff stream low levels less ahead middle (step value)
      fun result => ∃ more, result = .yield more ∧ good more)
    (fewer : middle.length < ahead.length) (fits : less ≤ needed)
    (later : ∀ more, good more → less ≤ levels →
      ReadsOff stream low levels needed middle rest (Reading.loop step more) goal) :
    ReadsOff stream low levels needed ahead rest (Reading.loop step value) goal :=
  Consumes.repeat_yield (fun _ _ before behind => before.further behind fewer) first fits later

theorem loop_done {step : α → Reading (ForInStep α)} {value : α}
    (last : ReadsOff stream low levels needed ahead rest (step value)
      fun result => ∃ value, result = .done value ∧ good value) :
    ReadsOff stream low levels needed ahead rest (Reading.loop step value) good :=
  Consumes.repeat_done last

/-- A repetition reads one item with each step, and ends after the last one. What is `good` says
how the value depends on the items that were read. -/
theorem loop_each {ι : Type} {step : α → Reading (ForInStep α)} {value : α}
    {text : ι → List Lexeme} {cost : ι → Nat} (good : List ι → α → Prop) {items : List ι}
    (nonempty : ∀ item ∈ items, text item ≠ []) (start : good [] value)
    (each : ∀ before item after value, items = before ++ item :: after → good before value →
      ReadsOff stream low levels (cost item) (text item ++ (after.flatMap text ++ rest))
        (after.flatMap text ++ rest) (step value)
        fun result => ∃ more, result = .yield more ∧ good (before ++ [item]) more)
    (ends : ∀ value, good items value →
      ReadsOff stream low levels 0 rest rest (step value) (· = .done value)) :
    ReadsOff stream low levels (items.foldr (fun item => max (cost item)) 0)
      (items.flatMap text ++ rest) rest (Reading.loop step value) (good items) := by
  -- The items are read from the left, and those that were read already are kept apart.
  have further (before after : List ι) (value : α) (split : items = before ++ after)
      (isGood : good before value) :
      ReadsOff stream low levels (after.foldr (fun item => max (cost item)) 0)
        (after.flatMap text ++ rest) rest (Reading.loop step value) (good items) := by
    induction after generalizing before value with
    | nil =>
        rw [List.append_nil] at split
        subst split
        exact loop_done ((ends value isGood).mono fun _ isDone => ⟨value, isDone, isGood⟩)
    | cons item after ih =>
        have first := each before item after value split isGood
        have notEmpty := List.length_pos_iff.2 (nonempty item (by simp [split]))
        simp only [List.flatMap_cons, List.foldr_cons, List.append_assoc]
        apply loop_yield first
        · simp only [List.length_append]
          omega
        · omega
        · intro more isGoodMore enough
          apply (ih (before ++ [item]) more (by simp [split]) isGoodMore).raise
          · omega
          · omega
  exact further [] items value rfl start

/-- A repetition that reads one item with each step and needs no levels. -/
theorem loop_each_free {ι : Type} {step : α → Reading (ForInStep α)} {value : α}
    {text : ι → List Lexeme} (good : List ι → α → Prop) {items : List ι}
    (nonempty : ∀ item ∈ items, text item ≠ []) (start : good [] value)
    (each : ∀ before item after value, items = before ++ item :: after → good before value →
      ReadsOff stream low levels 0 (text item ++ (after.flatMap text ++ rest))
        (after.flatMap text ++ rest) (step value)
        fun result => ∃ more, result = .yield more ∧ good (before ++ [item]) more)
    (ends : ∀ value, good items value →
      ReadsOff stream low levels 0 rest rest (step value) (· = .done value)) :
    ReadsOff stream low levels 0 (items.flatMap text ++ rest) rest (Reading.loop step value)
      (good items) := by
  have noCost (items : List ι) : items.foldr (fun _ => max 0) 0 = 0 := by
    induction items with
    | nil => rfl
    | cons item items ih => simp [ih]
  have loops := loop_each good nonempty start each ends
  rwa [noCost] at loops

end ReadsOff

namespace Reading

theorem current_readsOff :
    ReadsOff stream low levels 0 ahead ahead current fun token => token.lexeme = .next ahead :=
  fun _ isAt => ⟨Nat.zero_le _, isAt, isAt.ahead.get⟩

theorem peek_readsOff :
    ReadsOff stream low levels 0 ahead ahead (peek 1) fun token =>
      token.lexeme = .next ahead.tail :=
  fun _ isAt => ⟨Nat.zero_le _, isAt, isAt.ahead.get_succ⟩

theorem originAt_readsOff (line : Nat) :
    ReadsOff stream low levels 0 ahead ahead (originAt line) fun _ => True :=
  fun _ isAt => ⟨Nat.zero_le _, isAt, trivial⟩

theorem advance_readsOff :
    ReadsOff stream low levels 0 (lexeme :: rest) rest advance fun token =>
      token.lexeme = lexeme := by
  rintro cursor ⟨isAhead, later⟩
  refine .of_ok (advance_eq_of_stands isAhead.stands) ?_
  exact ⟨Nat.zero_le _, ⟨isAhead.tail, by omega⟩, isAhead.get⟩

variable {kind : Token.Kind}

theorem expect_readsOff (isKind : lexeme.kind = kind) (expected : String) :
    ReadsOff stream low levels 0 (lexeme :: rest) rest (expect kind expected) fun _ => True := by
  refine Consumes.bind_free current_readsOff fun token sameToken => ?_
  rw [if_pos (by rw [← Token.kind_lexeme, sameToken]; exact isKind)]
  exact advance_readsOff.mono fun _ _ => trivial

theorem skipIf_readsOff (isKind : lexeme.kind = kind) :
    ReadsOff stream low levels 0 (lexeme :: rest) rest (skipIf kind) (· = true) := by
  refine Consumes.bind_free current_readsOff fun token sameToken => ?_
  rw [if_pos (by rw [← Token.kind_lexeme, sameToken]; exact isKind)]
  exact advance_readsOff.bind_free fun _ _ => .pure (Nat.zero_le _) rfl

theorem skipIf_readsOff_none (notKind : (Lexeme.next ahead).kind ≠ kind) :
    ReadsOff stream low levels 0 ahead ahead (skipIf kind) (· = false) := by
  refine Consumes.bind_free current_readsOff fun token sameToken => ?_
  rw [if_neg (by rw [← Token.kind_lexeme, sameToken]; exact notKind)]
  exact .pure (Nat.zero_le _) rfl

variable {word : String}

omit [Limits] in
theorem isWord_iff {token : Token} (sameToken : token.lexeme = lexeme) :
    token.isWord word = true ↔ lexeme.word? = some word := by
  rw [Token.isWord, decide_eq_true_iff, ← Token.word?_lexeme, sameToken]

theorem skipWord_readsOff (isWord : lexeme.word? = some word) :
    ReadsOff stream low levels 0 (lexeme :: rest) rest (skipWord word) (· = true) := by
  refine Consumes.bind_free current_readsOff fun token sameToken => ?_
  rw [if_pos ((isWord_iff sameToken).2 isWord)]
  exact advance_readsOff.bind_free fun _ _ => .pure (Nat.zero_le _) rfl

theorem skipWord_readsOff_none (notWord : (Lexeme.next ahead).word? ≠ some word) :
    ReadsOff stream low levels 0 ahead ahead (skipWord word) (· = false) := by
  refine Consumes.bind_free current_readsOff fun token sameToken => ?_
  rw [if_neg fun isWord => notWord ((isWord_iff sameToken).1 isWord)]
  exact .pure (Nat.zero_le _) rfl

theorem expectWord_readsOff (isWord : lexeme.word? = some word) :
    ReadsOff stream low levels 0 (lexeme :: rest) rest (expectWord word) fun _ => True := by
  refine Consumes.bind_free current_readsOff fun token sameToken => ?_
  rw [if_pos ((isWord_iff sameToken).2 isWord)]
  exact advance_readsOff.bind_free fun _ _ => .pure (Nat.zero_le _) trivial

theorem identifier_readsOff {name : String} (free : Expr.isFreeName name = true) :
    ReadsOff stream low levels 0 (.word name :: rest) rest identifier (· = name) := by
  refine Consumes.bind_free current_readsOff fun token sameToken => ?_
  have isName : token.kind = .name := by
    rw [← Token.kind_lexeme, sameToken]
    exact wordKind_of_isFreeName free
  rw [if_pos isName]
  exact advance_readsOff.bind_free fun _ _ =>
    .pure (Nat.zero_le _) (congrArg Lexeme.text sameToken)

end Reading

/-! ### Rules for statements -/

/-- A rule for statements reads some of the tokens ahead off, while a number of constructs is
open. -/
abbrev ParsesOff (stream : TokenStream) (low depth needed : Nat) (ahead rest : List Lexeme)
    (rule : Parsing α) (good : α → Prop) : Prop :=
  Consumes stream (stream.AtPlace low depth) (maxDepth - depth) needed ahead rest rule good

namespace ParsesOff

variable {depth : Nat} {good : α → Prop}

/-- A rule over tokens does the same among rules for statements. -/
theorem lift {rule : Reading α}
    (reads : ReadsOff stream low (maxDepth - depth) needed ahead rest rule good) :
    ParsesOff stream low depth needed ahead rest (liftM rule) good := by
  rintro place ⟨isAt, sameDepth⟩
  have meets := reads place.cursor isAt
  cases outcome : rule stream place.cursor with
  | ok value stop =>
      rw [outcome] at meets
      exact .of_ok (Parsing.lift_eq_of_ok outcome) ⟨meets.1, ⟨meets.2.1, sameDepth⟩, meets.2.2⟩
  | error error stop =>
      rw [outcome] at meets
      exact .of_error (Parsing.lift_eq_of_error outcome) meets

/-- Rules for expressions may go as much deeper as levels are left. -/
theorem withDeeper {rule : Expr.Deeper → Reading α}
    (reads : ReadsOff stream low (maxDepth - depth) needed ahead rest
      (rule (Expr.deeper (maxDepth - depth))) good) :
    ParsesOff stream low depth needed ahead rest (Parsing.withDeeper rule) good := by
  rintro place ⟨isAt, rfl⟩
  exact lift reads place ⟨isAt, rfl⟩

/-- A construct takes one level. -/
theorem nested {rule : Parsing α} (construct : String)
    (parses : ParsesOff stream low (depth + 1) needed ahead rest rule good) :
    ParsesOff stream low depth (needed + 1) ahead rest (Parsing.nested construct rule) good := by
  rintro place ⟨isAt, rfl⟩
  by_cases room : place.depth < maxDepth
  · have meets := parses (place.entered construct) ⟨isAt, rfl⟩
    cases outcome : rule stream (place.entered construct) with
    | ok value after =>
        rw [outcome] at meets
        obtain ⟨enough, ⟨isAt, sameDepth⟩, isGood⟩ := meets
        refine .of_ok (Parsing.nested_eq_of_ok room outcome) ⟨by omega, ⟨isAt, ?_⟩, isGood⟩
        rw [Place.left, sameDepth, Nat.add_sub_cancel]
    | error error after =>
        rw [outcome] at meets
        obtain ⟨tooFew, isDeep⟩ := meets
        exact .of_error (Parsing.nested_eq_of_error room outcome) ⟨by omega, isDeep⟩
  · have noLevel : Parsing.nested construct rule stream place =
        .error (.tooDeep maxDepth (stream.get place.cursor).span) place := by
      simp only [Parsing.nested, Parsing.enter, if_pos (Nat.not_lt.1 room)]
    exact .of_error noLevel ⟨by omega, _, rfl⟩

theorem loop_yield {step : α → Parsing (ForInStep α)} {value : α} {goal : α → Prop}
    (first : ParsesOff stream low depth less ahead middle (step value)
      fun result => ∃ more, result = .yield more ∧ good more)
    (fewer : middle.length < ahead.length) (fits : less ≤ needed)
    (later : ∀ more, good more → less ≤ maxDepth - depth →
      ParsesOff stream low depth needed middle rest (Parsing.loop step more) goal) :
    ParsesOff stream low depth needed ahead rest (Parsing.loop step value) goal :=
  Consumes.repeat_yield (fun _ _ before behind => before.at_.further behind.at_ fewer) first fits
    later

theorem loop_done {step : α → Parsing (ForInStep α)} {value : α}
    (last : ParsesOff stream low depth needed ahead rest (step value)
      fun result => ∃ value, result = .done value ∧ good value) :
    ParsesOff stream low depth needed ahead rest (Parsing.loop step value) good :=
  Consumes.repeat_done last

end ParsesOff

end Stencil
