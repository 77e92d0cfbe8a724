import Stencil.Proofs.Expr.Printing
import Stencil.Proofs.Parse.Passing

/-!
# Rules that take given tokens

Where the tokens that are next are known, it is known what a rule does. Either there are enough
levels of nesting left, and the rule reads exactly these tokens and goes on in a known way; or there
are too few, and the rule fails for this reason. The number of levels that are needed is the same in
both cases. Rules in sequence need as many levels as the one that needs most.
-/

namespace Stencil

namespace TokenStream

/-- A given token stands at a place, and is not the last one. -/
structure Stands (stream : TokenStream) (cursor : Nat) (lexeme : Lexeme) : Prop where
  kind : (stream.get cursor).kind = lexeme.kind
  text : (stream.get cursor).text = lexeme.text
  inside : cursor + 1 < stream.size

/-- The tokens from a place on begin with given ones. -/
def Shows (stream : TokenStream) : (cursor : Nat) → List Lexeme → Prop
  | _, [] => True
  | cursor, lexeme :: rest => stream.Stands cursor lexeme ∧ stream.Shows (cursor + 1) rest

variable {stream : TokenStream} {cursor : Nat} {lexeme : Lexeme} {first second : List Lexeme}

theorem shows_cons : stream.Shows cursor (lexeme :: second) ↔
    stream.Stands cursor lexeme ∧ stream.Shows (cursor + 1) second := Iff.rfl

theorem shows_append : stream.Shows cursor (first ++ second) ↔
    stream.Shows cursor first ∧ stream.Shows (cursor + first.length) second := by
  induction first generalizing cursor with
  | nil => simp [Shows]
  | cons lexeme first ih =>
      have sameCursor : cursor + 1 + first.length = cursor + (first.length + 1) := by omega
      simp only [List.cons_append, Shows, ih, List.length_cons, sameCursor, and_assoc]

theorem Shows.inside (shows : stream.Shows cursor first) (nonempty : first ≠ []) :
    cursor + 1 < stream.size := by
  cases first with
  | nil => exact absurd rfl nonempty
  | cons lexeme first => exact shows.1.inside

theorem Stands.next_eq (stands : stream.Stands cursor lexeme) :
    stream.next cursor = cursor + 1 :=
  if_pos stands.inside

end TokenStream

variable {α β γ : Type} {levels needed more start middle stop : Nat} {stream : TokenStream}
  {rule : Reading α} {rest : β → Reading α} {good : β → Prop}

/-- With enough levels of nesting left, a rule used at one place is the same as what it goes on with
at another place, for some good value; with fewer levels it is nested too deeply. -/
structure GoesOn [Limits] (levels needed : Nat) (stream : TokenStream) (rule : Reading α)
    (start : Nat) (rest : β → Reading α) (stop : Nat) (good : β → Prop) : Prop where
  enough : needed ≤ levels → ∃ value, rule stream start = rest value stream stop ∧ good value
  tooFew : levels < needed →
    ∃ span after, rule stream start = .error (.tooDeep maxDepth span) after

/-- With enough levels of nesting left, a rule takes the tokens between two places and gives a good
value; with fewer levels it is nested too deeply. -/
abbrev Takes [Limits] (levels needed : Nat) (stream : TokenStream) (rule : Reading α)
    (start stop : Nat) (good : α → Prop) : Prop :=
  GoesOn levels needed stream rule start pure stop good

namespace GoesOn

variable [Limits]

theorem of_eq {value : β} (same : rule stream start = rest value stream stop)
    (isGood : good value) : GoesOn levels 0 stream rule start rest stop good :=
  ⟨fun _ => ⟨value, same, isGood⟩, fun tooFew => absurd tooFew (Nat.not_lt_zero _)⟩

theorem mono {good' : β → Prop} (goesOn : GoesOn levels needed stream rule start rest stop good)
    (better : ∀ value, good value → good' value) :
    GoesOn levels needed stream rule start rest stop good' := by
  refine ⟨fun enough => ?_, goesOn.tooFew⟩
  obtain ⟨value, same, isGood⟩ := goesOn.enough enough
  exact ⟨value, same, better value isGood⟩

/-- A rule that begins as another one does goes on as that one does. -/
theorem of_rule_eq {rule' : Reading α} {start' : Nat}
    (goesOn : GoesOn levels needed stream rule' start' rest stop good)
    (same : rule stream start = rule' stream start') :
    GoesOn levels needed stream rule start rest stop good := by
  constructor
  · rw [same]
    exact goesOn.enough
  · rw [same]
    exact goesOn.tooFew

theorem of_needed_eq (goesOn : GoesOn levels needed stream rule start rest stop good)
    (same : needed = more) : GoesOn levels more stream rule start rest stop good :=
  same ▸ goesOn

theorem of_stop_eq {stop' : Nat} (goesOn : GoesOn levels needed stream rule start rest stop good)
    (same : stop = stop') : GoesOn levels needed stream rule start rest stop' good :=
  same ▸ goesOn

theorem trans {rest' : γ → Reading α} {goal : γ → Prop}
    (first : GoesOn levels needed stream rule start rest middle good)
    (second : ∀ value, good value →
      GoesOn levels more stream (rest value) middle rest' stop goal) :
    GoesOn levels (max needed more) stream rule start rest' stop goal := by
  by_cases enoughFirst : needed ≤ levels
  · obtain ⟨value, same, isGood⟩ := first.enough enoughFirst
    refine ⟨fun enough => ?_, fun tooFew => ?_⟩ <;> rw [same]
    · exact (second value isGood).enough (by omega)
    · exact (second value isGood).tooFew (by omega)
  · refine ⟨fun enough => absurd enough (by omega), fun _ => first.tooFew (by omega)⟩

/-- What a rule goes on with is followed by what follows the rule. -/
theorem bind (first : GoesOn levels needed stream rule start rest stop good)
    (next : α → Reading γ) :
    GoesOn levels needed stream (rule >>= next) start (fun value => rest value >>= next) stop
      good := by
  refine ⟨fun enough => ?_, fun tooFew => ?_⟩
  · obtain ⟨value, same, isGood⟩ := first.enough enough
    refine ⟨value, ?_, isGood⟩
    change EStateM.bind (rule stream) _ start = EStateM.bind (rest value stream) _ stop
    simp only [EStateM.bind, same]
  · obtain ⟨span, after, failed⟩ := first.tooFew tooFew
    exact ⟨span, after, bind_eq_of_error failed⟩

/-- A rule that succeeds without any nesting is passed over. -/
theorem bind_of_ok {step : Reading γ} {value : γ} {next : γ → Reading α}
    (outcome : step stream start = .ok value middle)
    (goesOn : GoesOn levels needed stream (next value) middle rest stop good) :
    GoesOn levels needed stream (step >>= next) start rest stop good :=
  goesOn.of_rule_eq (bind_eq_of_ok outcome)

/-- A look at the next token. -/
theorem current {next : Token → Reading α}
    (goesOn : GoesOn levels needed stream (next (stream.get start)) start rest stop good) :
    GoesOn levels needed stream (Reading.current >>= next) start rest stop good :=
  goesOn.of_rule_eq rfl

theorem originAt {line : Nat} {next : Origin → Reading α}
    (goesOn : GoesOn levels needed stream (next ⟨line, stream.sourceName⟩) start rest stop good) :
    GoesOn levels needed stream (Reading.originAt line >>= next) start rest stop good :=
  goesOn.of_rule_eq rfl

/-- A repetition goes on after a step that asks for more and has read a token. -/
theorem loop {step : α → Reading (ForInStep α)} {value : α} {good : α → Prop}
    (takes : Takes levels needed stream (step value) start stop
      fun result => ∃ more, result = .yield more ∧ good more)
    (further : start < stop) (inside : start < stream.size) :
    GoesOn levels needed stream (Reading.loop step value) start (Reading.loop step) stop good := by
  refine ⟨fun enough => ?_, fun tooFew => ?_⟩
  · obtain ⟨_, outcome, more, rfl, isGood⟩ := takes.enough enough
    exact ⟨more, repeatFrom_eq_of_yield outcome further inside, isGood⟩
  · obtain ⟨span, after, failed⟩ := takes.tooFew tooFew
    exact ⟨span, after, repeatFrom_eq_of_error failed⟩

end GoesOn

namespace Takes

variable [Limits]

theorem of_ok {good : α → Prop} {value : α} (outcome : rule stream start = .ok value stop)
    (isGood : good value) : Takes levels 0 stream rule start stop good :=
  .of_eq outcome isGood

theorem pure {good : α → Prop} {value : α} (isGood : good value) :
    Takes levels 0 stream (Pure.pure value) start start good :=
  .of_ok rfl isGood

/-- A rule is followed by another one that may depend on its value. -/
theorem bind {next : α → Reading γ} {rest : β → Reading γ} {good : α → Prop} {goal : β → Prop}
    (first : Takes levels needed stream rule start middle good)
    (second : ∀ value, good value →
      GoesOn levels more stream (next value) middle rest stop goal) :
    GoesOn levels (max needed more) stream (rule >>= next) start rest stop goal :=
  (GoesOn.bind first next).trans fun value isGood => (second value isGood).of_rule_eq rfl

/-- A rule is followed by something that needs no levels. -/
theorem bind_pure {next : α → Reading γ} {rest : β → Reading γ} {good : α → Prop}
    {goal : β → Prop} (first : Takes levels needed stream rule start middle good)
    (second : ∀ value, good value →
      GoesOn levels 0 stream (next value) middle rest stop goal) :
    GoesOn levels needed stream (rule >>= next) start rest stop goal :=
  (first.bind second).of_needed_eq (Nat.max_zero _)

theorem map {change : α → β} {good : α → Prop} {goal : β → Prop}
    (first : Takes levels needed stream rule start stop good)
    (changed : ∀ value, good value → goal (change value)) :
    Takes levels needed stream (change <$> rule) start stop goal := by
  refine ⟨fun enough => ?_, fun tooFew => ?_⟩
  · obtain ⟨value, outcome, isGood⟩ := first.enough enough
    exact ⟨change value, map_eq_of_ok outcome, changed value isGood⟩
  · obtain ⟨span, after, failed⟩ := first.tooFew tooFew
    exact ⟨span, after, map_eq_of_error failed⟩

/-- A repetition ends with a step that asks for nothing more. -/
theorem loop_done {step : α → Reading (ForInStep α)} {value : α} {good : α → Prop}
    (outcome : step value stream start = .ok (.done value) start) (isGood : good value) :
    Takes levels 0 stream (Reading.loop step value) start start good :=
  .of_ok (repeatFrom_eq_of_done outcome) isGood

end Takes

/-! ### Single tokens -/

namespace Reading

variable {lexeme : Lexeme} {kind : Token.Kind}

theorem advance_eq_of_stands (stands : stream.Stands start lexeme) :
    advance stream start = .ok (stream.get start) (start + 1) := by
  rw [advance, stands.next_eq]

theorem expect_eq_of_stands (stands : stream.Stands start lexeme) (isKind : lexeme.kind = kind)
    (expected : String) :
    expect kind expected stream start = .ok (stream.get start) (start + 1) := by
  rw [expect_eq_of_kind (stands.kind.trans isKind), stands.next_eq]

theorem skipIf_eq_of_stands (stands : stream.Stands start lexeme) (isKind : lexeme.kind = kind) :
    skipIf kind stream start = .ok true (start + 1) := by
  rw [skipIf_eq_of_kind (stands.kind.trans isKind), stands.next_eq]

theorem identifier_eq_of_stands (stands : stream.Stands start lexeme)
    (isName : lexeme.kind = .name) : identifier stream start = .ok lexeme.text (start + 1) := by
  rw [identifier_eq_of_name (stands.kind.trans isName), stands.next_eq, stands.text]

end Reading

/-! ### Items with something between them -/

theorem intercalate_cons_eq_append {between : α} {first : List α} {others : List (List α)} :
    [between].intercalate (first :: others) = first ++ others.flatMap (between :: ·) := by
  induction others generalizing first with
  | nil => simp
  | cons second others ih => rw [List.intercalate_cons_cons, ih]; simp

namespace Expr

/-- The tokens before an item: a comma, unless it is the first one. -/
def lead (isFirst : Bool) : List Lexeme :=
  if isFirst then [] else [.symbol ","]

/-- Texts with commas between them, and one before the first if others come before. -/
def commas (isFirst : Bool) (pieces : List (List Lexeme)) : List Lexeme :=
  if isFirst then separated pieces else pieces.flatMap (.symbol "," :: ·)

@[simp]
theorem commas_nil (isFirst : Bool) : commas isFirst [] = [] := by
  cases isFirst <;> rfl

theorem commas_cons (isFirst : Bool) (piece : List Lexeme) (pieces : List (List Lexeme)) :
    commas isFirst (piece :: pieces) =
      lead isFirst ++ (piece ++ commas false pieces) := by
  cases isFirst with
  | true => simp [commas, separated, lead, intercalate_cons_eq_append]
  | false => simp [commas, lead]

theorem commas_append (isFirst : Bool) (first second : List (List Lexeme)) :
    commas isFirst (first ++ second) =
      commas isFirst first ++ commas (isFirst && first.isEmpty) second := by
  cases first with
  | nil => simp
  | cons piece first =>
      rw [List.cons_append, commas_cons, commas_cons]
      simp [commas]

end Expr

namespace Reading

open Stencil.Expr

section

variable [Limits] {close : Token.Kind} {expected : String} {isEmpty : α → Bool}
  {item : α → Reading α}

/-- One more item is read. -/
theorem commaStep_takes {lexeme : Lexeme} {piece : List Lexeme} {value : α} {good : α → Prop}
    (notComma : close ≠ .comma) (notClose : lexeme.kind ≠ close)
    (shows : stream.Shows start (lead (isEmpty value) ++ lexeme :: piece))
    (takes : Takes levels needed stream (item value) (start + (lead (isEmpty value)).length) stop
      good) :
    Takes levels needed stream (commaStep close expected isEmpty item value) start stop
      fun result => ∃ more, result = .yield more ∧ good more := by
  have yields (next : α → Reading (ForInStep α))
      (isYield : ∀ value, next value = pure (.yield value)) :
      Takes levels needed stream (item value >>= next) (start + (lead (isEmpty value)).length) stop
        fun result => ∃ more, result = .yield more ∧ good more :=
    takes.bind_pure fun more isGood => by rw [isYield]; exact Takes.pure ⟨more, rfl, isGood⟩
  cases isFirst : isEmpty value with
  | true =>
      simp only [isFirst, lead, if_true, List.nil_append, List.length_nil, Nat.add_zero]
        at shows yields
      refine .current ?_
      rw [if_neg (shows.1.kind ▸ notClose), if_pos isFirst]
      exact yields _ fun _ => rfl
  | false =>
      simp only [isFirst, lead, Bool.false_eq_true, if_false, List.singleton_append,
        List.length_singleton] at shows yields
      refine .current ?_
      have isComma : (stream.get start).kind = .comma := shows.1.kind
      rw [if_neg (isComma ▸ notComma.symm), if_neg (by simp [isFirst])]
      refine .bind_of_ok (expect_eq_of_stands shows.1 rfl expected) (.current ?_)
      rw [if_neg (shows.2.1.kind ▸ notClose)]
      exact yields _ fun _ => rfl

/-- Some items with commas between them, after others. What is `good` says how the value depends on
the items that were read, and each item that is read is added to them. -/
theorem commaStep_goesOn_after {ι : Type} {text : ι → List Lexeme} {cost : ι → Nat}
    (good : List ι → α → Prop) (isFirst : Bool) (items : List ι) (notComma : close ≠ .comma)
    (emptiness : ∀ before value, good before value →
      isEmpty value = (isFirst && before.isEmpty))
    (begins : ∀ next ∈ items, ∃ lexeme rest, text next = lexeme :: rest ∧ lexeme.kind ≠ close)
    {before : List ι} {value : α} (isGood : good before value)
    (each : ∀ earlier next later, before ++ items = earlier ++ next :: later → ∀ value start,
      good earlier value → stream.Shows start (text next) →
      ((stream.get (start + (text next).length)).kind = .comma ∨
        (stream.get (start + (text next).length)).kind = close) →
      Takes levels (cost next) stream (item value) start (start + (text next).length)
        (good (earlier ++ [next])))
    (shows : stream.Shows start (commas (isFirst && before.isEmpty) (items.map text)))
    (stopsAt : stop = start + (commas (isFirst && before.isEmpty) (items.map text)).length)
    (ends : items ≠ [] → (stream.get stop).kind = .comma ∨ (stream.get stop).kind = close) :
    GoesOn levels (items.foldr (fun next => max (cost next)) 0) stream
      (Reading.loop (commaStep close expected isEmpty item) value) start
      (Reading.loop (commaStep close expected isEmpty item)) stop (good (before ++ items)) := by
  induction items generalizing before value start with
  | nil =>
      simp only [List.map_nil, commas_nil, List.length_nil, Nat.add_zero] at stopsAt
      subst stopsAt
      exact .of_eq rfl (by simpa using isGood)
  | cons next items ih =>
      obtain ⟨lexeme, rest, sameText, notClose⟩ := begins next List.mem_cons_self
      rw [List.map_cons, commas_cons, ← emptiness before value isGood] at shows stopsAt
      rw [← List.append_assoc, TokenStream.shows_append, List.length_append, ← Nat.add_assoc]
        at shows
      obtain ⟨showsItem, showsRest⟩ := shows
      simp only [List.length_append, ← Nat.add_assoc] at stopsAt
      -- After the item comes another comma, or what comes after all items.
      have endsItem :
          (stream.get (start + (lead (isEmpty value)).length + (text next).length)).kind = .comma ∨
          (stream.get (start + (lead (isEmpty value)).length + (text next).length)).kind =
            close := by
        cases items with
        | nil =>
            simp only [List.map_nil, commas_nil, List.length_nil, Nat.add_zero] at stopsAt
            exact stopsAt ▸ ends (by simp)
        | cons following items =>
            rw [List.map_cons, commas_cons] at showsRest
            exact Or.inl showsRest.1.kind
      have takes := each before next items rfl value _ isGood
        (TokenStream.shows_append.1 showsItem).2 endsItem
      rw [sameText] at showsItem
      have inside := showsItem.inside (by simp)
      have further : start < start + (lead (isEmpty value)).length + (text next).length := by
        rw [sameText, List.length_cons]
        omega
      refine (GoesOn.loop (commaStep_takes notComma notClose showsItem takes) further
        (by omega)).trans fun more isGoodMore => ?_
      have notAlone : (isFirst && (before ++ [next]).isEmpty) = false := by simp
      have later := ih (fun next member => begins next (List.mem_cons_of_mem _ member)) isGoodMore
        (by simpa using each) (notAlone ▸ showsRest) (notAlone ▸ stopsAt) fun _ => ends (by simp)
      simpa using later

/-- Some items with commas between them, when none was read yet. -/
theorem commaStep_goesOn {ι : Type} {text : ι → List Lexeme} {cost : ι → Nat}
    (good : List ι → α → Prop) (isFirst : Bool) (items : List ι) (notComma : close ≠ .comma)
    (emptiness : ∀ before value, good before value →
      isEmpty value = (isFirst && before.isEmpty))
    (begins : ∀ next ∈ items, ∃ lexeme rest, text next = lexeme :: rest ∧ lexeme.kind ≠ close)
    (each : ∀ before next after, items = before ++ next :: after → ∀ value start,
      good before value → stream.Shows start (text next) →
      ((stream.get (start + (text next).length)).kind = .comma ∨
        (stream.get (start + (text next).length)).kind = close) →
      Takes levels (cost next) stream (item value) start (start + (text next).length)
        (good (before ++ [next])))
    {value : α} (isGood : good [] value)
    (shows : stream.Shows start (commas isFirst (items.map text)))
    (ends : items ≠ [] →
      (stream.get (start + (commas isFirst (items.map text)).length)).kind = .comma ∨
        (stream.get (start + (commas isFirst (items.map text)).length)).kind = close) :
    GoesOn levels (items.foldr (fun next => max (cost next)) 0) stream
      (Reading.loop (commaStep close expected isEmpty item) value) start
      (Reading.loop (commaStep close expected isEmpty item))
      (start + (commas isFirst (items.map text)).length) (good items) := by
  have sameFirst : (isFirst && ([] : List ι).isEmpty) = isFirst := Bool.and_true _
  exact commaStep_goesOn_after good isFirst items notComma emptiness begins isGood each
    (sameFirst.symm ▸ shows) (by rw [sameFirst]) ends

/-- A list of items ends with the closing token. -/
theorem commaList_takes {lexeme : Lexeme} {none : α} {good : α → Prop}
    (goesOn : GoesOn levels needed stream
      (Reading.loop (commaStep close expected isEmpty item) none) start
      (Reading.loop (commaStep close expected isEmpty item)) stop good)
    (closes : stream.Stands stop lexeme) (isClose : lexeme.kind = close) :
    Takes levels needed stream (commaList close expected isEmpty item none) start (stop + 1)
      good := by
  have ends (value : α) :
      commaStep close expected isEmpty item value stream stop = .ok (.done value) stop := by
    rw [commaStep, current_bind, if_pos (closes.kind.trans isClose)]
    rfl
  have loopTakes : Takes levels needed stream
      (Reading.loop (commaStep close expected isEmpty item) none) start stop good :=
    (goesOn.trans fun value isGood => Takes.loop_done (ends value) isGood).of_needed_eq
      (Nat.max_zero _)
  refine loopTakes.bind_pure fun value isGood => ?_
  exact .bind_of_ok (advance_eq_of_stands closes) (Takes.pure isGood)

end

theorem wordKind_of_isFreeName {word : String} (free : isFreeName word = true) :
    Lexer.wordKind word = .name := by
  simp only [isFreeName, isReserved, Bool.and_eq_true, Bool.not_eq_true', Bool.or_eq_false_iff,
    Option.isSome_eq_false_iff, Option.isNone_iff_eq_none] at free
  rw [Lexer.wordKind, free.2.1, free.2.2]

/-- More names after points. -/
theorem loop_dottedStep_eq {parts : List (List Char)} {value : String}
    (areNames : ∀ part ∈ parts, isFreeName (String.ofList part) = true)
    (shows : stream.Shows start
      (parts.flatMap fun part => [.symbol ".", .word (String.ofList part)]))
    (stopsAt : stop = start + 2 * parts.length) (ends : (stream.get stop).kind ≠ .dot) :
    Reading.loop dottedStep value stream start =
      .ok (value ++ String.ofList (parts.flatMap ('.' :: ·))) stop := by
  induction parts generalizing value start with
  | nil =>
      obtain rfl : stop = start := by simpa using stopsAt
      refine repeatFrom_eq_of_done ?_
      rw [dottedStep, current_bind, peek_bind, if_neg (by simp [ends])]
      simp only [List.flatMap_nil, String.ofList_nil, String.append_empty]
      rfl
  | cons part parts ih =>
      rw [List.flatMap_cons, TokenStream.shows_append] at shows
      obtain ⟨⟨dot, word, _⟩, showsRest⟩ := shows
      have isName : (stream.get (start + 1)).kind = .name :=
        word.kind.trans (wordKind_of_isFreeName (areNames part List.mem_cons_self))
      have step : dottedStep value stream start =
          .ok (.yield (value ++ "." ++ String.ofList part)) (start + 1 + 1) := by
        rw [dottedStep, current_bind, peek_bind, if_pos ⟨dot.kind, isName⟩,
          bind_eq_of_ok (advance_eq_of_stands dot), bind_eq_of_ok (advance_eq_of_stands word),
          word.text]
        rfl
      have later (value : String) : Reading.loop dottedStep value stream (start + 1 + 1) = _ :=
        ih (fun part member => areNames part (List.mem_cons_of_mem _ member)) showsRest
          (by rw [stopsAt, List.length_cons]; omega)
      have inside : id start < stream.size := Nat.lt_of_succ_lt dot.inside
      rw [Reading.loop, repeatFrom_eq_of_yield step (by simp only [id]; omega) inside]
      refine (later _).trans ?_
      simp [String.ofList_append, String.ofList_cons, String.append_assoc]

theorem exists_dotted_eq (name : String) : ∃ first parts,
    name.toList.splitOn '.' = first :: parts ∧ dotted name = .word (String.ofList first) ::
      parts.flatMap fun part => [.symbol ".", .word (String.ofList part)] := by
  obtain ⟨first, parts, sameParts⟩ :=
    List.exists_cons_of_ne_nil (List.splitOn_ne_nil '.' name.toList)
  refine ⟨first, parts, sameParts, ?_⟩
  rw [dotted, sameParts, List.map_cons, intercalate_cons_eq_append, List.flatMap_map]
  rfl

/-- Names joined by points are read as a whole. -/
theorem dottedName_eq {name : String} (isName : isDottedName name = true)
    (shows : stream.Shows start (dotted name))
    (ends : (stream.get (start + (dotted name).length)).kind ≠ .dot) :
    dottedName stream start = .ok name (start + (dotted name).length) := by
  obtain ⟨first, parts, sameParts, sameDotted⟩ := exists_dotted_eq name
  have joined : first ++ parts.flatMap ('.' :: ·) = name.toList := by
    rw [← intercalate_cons_eq_append, ← sameParts, List.intercalate_splitOn]
  have length_eq : (dotted name).length = 1 + 2 * parts.length := by
    rw [sameDotted]
    simp [List.map_const', Nat.add_comm, Nat.mul_comm]
  rw [isDottedName, List.all_eq_true, sameParts] at isName
  rw [length_eq] at ends ⊢
  rw [sameDotted] at shows
  have isFirst := identifier_eq_of_stands shows.1
    (wordKind_of_isFreeName (isName first List.mem_cons_self))
  rw [dottedName, bind_eq_of_ok isFirst,
    loop_dottedStep_eq (fun part member => isName part (List.mem_cons_of_mem _ member)) shows.2
      (by omega) ends]
  simp only [Lexeme.word, ← String.ofList_append, joined, String.ofList_toList]

end Reading

end Stencil
