import Stencil.Proofs.Parse.Accounting
import Stencil.Proofs.Parse.Consuming

/-!
# The same words before a name

An echo consists of two streams that have the same word of tokens ahead, one of them with the end
of a tag after it and the other with a name. A rule that succeeds on the first stream is repeated on
the other one: it stops at the same place of the word, and its value is the same as far as a view of
it shows, which leaves positions out.

Nothing is said about rules that fail on the first stream. A rule that goes on where it sees a name
after the word is not repeated. Names joined by points are read by such a rule, which takes a point
only together with a name, so that a word that ends with a point is set apart.
-/

namespace Stencil

variable {α β γ δ : Type}

namespace TokenStream.Ahead

variable {stream : TokenStream} {start stop : Nat} {lexemes first second rest : List Lexeme}

/-- The tokens between two places are those that were ahead and are not ahead any more. -/
theorem between_eq (before : stream.Ahead start (first ++ rest))
    (after : stream.Ahead stop (second ++ rest)) (inOrder : start ≤ stop) :
    first = (stream.between start stop).map Token.lexeme ++ second := by
  rw [Ahead, List.append_assoc] at before after
  have sameStop : start + (stop - start) = stop := by omega
  have split := List.take_append_drop (stop - start) (stream.significant.toList.drop start)
  rw [List.drop_drop, sameStop] at split
  rw [← split, List.map_append, after, ← List.append_assoc] at before
  exact (List.append_cancel_right before).symm

end TokenStream.Ahead

theorem Token.isKeyword_congr {token token' : Token} (sameKind : token'.kind = token.kind)
    (word : Keyword) : token'.isKeyword word = token.isKeyword word := by
  rw [isKeyword, isKeyword, sameKind]

theorem Token.word?_congr {token token' : Token} (sameKind : token'.kind = token.kind)
    (sameText : token'.text = token.text) : token'.word? = token.word? := by
  rw [word?, word?, sameKind, sameText]

/-- Two streams with the same word of tokens ahead. -/
structure Echo where
  near : TokenStream
  far : TokenStream
  word : List Lexeme
  /-- The tokens after the word. -/
  nearRest : List Lexeme
  farRest : List Lexeme
  ends : (Lexeme.next nearRest).kind = .blockEnd
  goesOn : (Lexeme.next farRest).kind = .name
  isClosed : near.IsClosed
  sourceName : far.sourceName = near.sourceName

/-- An origin without its line. -/
def Origin.forgetLine (origin : Origin) : Origin := ⟨0, origin.sourceName⟩

/-- A view of what a step of a repetition gives. -/
def viewStep (view : α → β) : ForInStep α → ForInStep β
  | .done value => .done (view value)
  | .yield value => .yield (view value)

namespace Echo

variable (echo : Echo)

/-- Two places are the same place in the word, with given tokens of it left. -/
structure Beside (left : List Lexeme) (near far : Nat) : Prop where
  isSuffix : left <:+ echo.word
  near_ahead : echo.near.Ahead near (left ++ echo.nearRest)
  far_ahead : echo.far.Ahead far (left ++ echo.farRest)

/-- A rule leads from one place in the word to another one on the first stream. -/
def Leads (left : List Lexeme) (rule : Reading α) (value : α) (left' : List Lexeme) : Prop :=
  ∃ near stop, echo.near.Ahead near (left ++ echo.nearRest) ∧
    rule echo.near near = .ok value stop ∧ echo.near.Ahead stop (left' ++ echo.nearRest)

variable {echo} {left left' : List Lexeme} {lexeme : Lexeme} {near far near' far' : Nat}

theorem Beside.succ (beside : echo.Beside (lexeme :: left) near far) :
    echo.Beside left (near + 1) (far + 1) :=
  ⟨(List.suffix_cons lexeme left).trans beside.isSuffix, beside.near_ahead.tail,
    beside.far_ahead.tail⟩

theorem kind_of_nil (ahead : echo.near.Ahead near ([] ++ echo.nearRest)) :
    (echo.near.get near).kind = .blockEnd :=
  (congrArg Lexeme.kind ahead.get).trans echo.ends

/-- A rule gets further on both streams or on neither. -/
theorem Beside.further_iff (before : echo.Beside left near far)
    (after : echo.Beside left' near' far') :
    near < near' ∧ near < echo.near.size ↔ far < far' ∧ far < echo.far.size := by
  have := before.near_ahead.size_eq
  have := before.far_ahead.size_eq
  have := after.near_ahead.size_eq
  have := after.far_ahead.size_eq
  simp only [List.length_append] at *
  omega

end Echo

/-- A rule that succeeds on the first stream of an echo where given tokens of the word are left is
repeated by another rule on the second stream. -/
def Echoes (echo : Echo) (view : α → β) (left : List Lexeme) (rule rule' : Reading α) : Prop :=
  ∀ near far, echo.Beside left near far → ∀ value stop, rule echo.near near = .ok value stop →
    ∃ value' stop' left', rule' echo.far far = .ok value' stop' ∧ view value' = view value ∧
      echo.Beside left' stop stop'

namespace Echoes

variable {echo : Echo} {view : α → β} {left rest : List Lexeme} {lexeme : Lexeme}
  {rule rule' : Reading α}

theorem pure {value value' : α} (same : view value' = view value) :
    Echoes echo view left (Pure.pure value) (Pure.pure value') := by
  intro near far beside result stop outcome
  cases outcome
  exact ⟨value', far, left, rfl, same, beside⟩

theorem throw (error : SyntaxError) : Echoes echo view left (throw error) rule' := by
  intro near far beside value stop outcome
  cases outcome

theorem refuse (token : Token) (expected : String) :
    Echoes echo view left (Reading.refuse token expected) rule' :=
  throw _

/-- What holds of the tokens left as a part of the word may be used. -/
theorem of_isSuffix (echoes : left <:+ echo.word → Echoes echo view left rule rule') :
    Echoes echo view left rule rule' :=
  fun near far beside => echoes beside.isSuffix near far beside

/-- A rule that reads a token inside of the tag does not succeed after the word. -/
theorem of_reads (reads : ∀ start, Reads echo.near 1 start rule) :
    Echoes echo view [] rule rule' := by
  intro near far beside value stop outcome
  have passed := reads near
  rw [Reads, outcome] at passed
  have inner := passed.1.inner near (Nat.le_refl near) passed.2
  rw [Echo.kind_of_nil beside.near_ahead] at inner
  cases inner

theorem bind_of_leads {view' : γ → δ} {next next' : α → Reading γ}
    (first : Echoes echo view left rule rule')
    (further : ∀ value value' left', view value' = view value →
      echo.Leads left rule value left' → Echoes echo view' left' (next value) (next' value')) :
    Echoes echo view' left (rule >>= next) (rule' >>= next') := by
  intro near far beside result stop outcome
  rcases exists_of_bind_eq_ok outcome with ⟨value, middle, firstOutcome, restOutcome⟩
  rcases first near far beside value middle firstOutcome with
    ⟨value', middle', left', outcome', same, beside'⟩
  rw [bind_eq_of_ok outcome']
  exact further value value' left' same
    ⟨near, middle, beside.near_ahead, firstOutcome, beside'.near_ahead⟩ middle middle' beside'
    result stop restOutcome

theorem bind {view' : γ → δ} {next next' : α → Reading γ}
    (first : Echoes echo view left rule rule')
    (further : ∀ value value' left', view value' = view value →
      Echoes echo view' left' (next value) (next' value')) :
    Echoes echo view' left (rule >>= next) (rule' >>= next') :=
  first.bind_of_leads fun value value' left' same _ => further value value' left' same

theorem bind_same_of_leads {view' : γ → δ} {next next' : α → Reading γ}
    (first : Echoes echo id left rule rule')
    (further : ∀ value left', echo.Leads left rule value left' →
      Echoes echo view' left' (next value) (next' value)) :
    Echoes echo view' left (rule >>= next) (rule' >>= next') := by
  apply first.bind_of_leads
  intro value value' left' same leads
  change value' = value at same
  rw [same]
  exact further value left' leads

theorem bind_same {view' : γ → δ} {next next' : α → Reading γ}
    (first : Echoes echo id left rule rule')
    (further : ∀ value left', Echoes echo view' left' (next value) (next' value)) :
    Echoes echo view' left (rule >>= next) (rule' >>= next') :=
  first.bind_same_of_leads fun value left' _ => further value left'

theorem map {view' : γ → δ} {change : α → γ} (echoes : Echoes echo view left rule rule')
    (changed : ∀ value value', view value' = view value →
      view' (change value') = view' (change value)) :
    Echoes echo view' left (change <$> rule) (change <$> rule') :=
  echoes.bind fun value value' _ same => .pure (changed value value' same)

theorem originAt_bind {line line' : Nat} {next next' : Origin → Reading α}
    (echoes : ∀ origin origin', origin'.forgetLine = origin.forgetLine →
      Echoes echo view left (next origin) (next' origin')) :
    Echoes echo view left (Reading.originAt line >>= next) (Reading.originAt line' >>= next') := by
  intro near far beside
  have sameName := congrArg (Origin.mk 0) echo.sourceName
  exact echoes ⟨line, echo.near.sourceName⟩ ⟨line', echo.far.sourceName⟩ sameName near far beside

/-- A look at the next token of the word. -/
theorem current_cons {next next' : Token → Reading α}
    (echoes : ∀ token token', token.lexeme = lexeme → token'.kind = token.kind →
      token'.text = token.text → Echoes echo view (lexeme :: rest) (next token) (next' token')) :
    Echoes echo view (lexeme :: rest) (Reading.current >>= next) (Reading.current >>= next') := by
  intro near far beside
  have sameToken := beside.far_ahead.get.trans beside.near_ahead.get.symm
  exact echoes (echo.near.get near) (echo.far.get far) beside.near_ahead.get
    (congrArg Lexeme.kind sameToken) (congrArg Lexeme.text sameToken) near far beside

/-- A look at the token after the word. -/
theorem current_nil {next next' : Token → Reading α}
    (echoes : ∀ token token', token.kind = .blockEnd → token'.kind = .name →
      Echoes echo view [] (next token) (next' token')) :
    Echoes echo view [] (Reading.current >>= next) (Reading.current >>= next') := by
  intro near far beside
  have isName := (congrArg Lexeme.kind beside.far_ahead.get).trans echo.goesOn
  exact echoes _ _ (Echo.kind_of_nil beside.near_ahead) isName near far beside

/-- A look at the token after the next one. -/
theorem peek_cons {next next' : Token → Reading α}
    (within : ∀ token token' rest', rest = token.lexeme :: rest' → token'.kind = token.kind →
      Echoes echo view (lexeme :: rest) (next token) (next' token'))
    (atEnd : ∀ token token', rest = [] → token.kind = .blockEnd → token'.kind = .name →
      Echoes echo view (lexeme :: rest) (next token) (next' token')) :
    Echoes echo view (lexeme :: rest) (Reading.peek 1 >>= next) (Reading.peek 1 >>= next') := by
  intro near far beside
  have nearToken := beside.near_ahead.get_succ
  have farToken := beside.far_ahead.get_succ
  cases rest with
  | nil =>
      have isEnd := (congrArg Lexeme.kind nearToken).trans echo.ends
      have isName := (congrArg Lexeme.kind farToken).trans echo.goesOn
      exact atEnd _ _ rfl isEnd isName near far beside
  | cons following rest =>
      change (echo.near.get (near + 1)).lexeme = following at nearToken
      subst nearToken
      exact within _ _ rest rfl (congrArg Lexeme.kind farToken) near far beside

/-- A look at a token that makes no difference. -/
theorem peek_any {next next' : Token → Reading α}
    (echoes : ∀ token token', Echoes echo view left (next token) (next' token')) :
    Echoes echo view left (Reading.peek 1 >>= next) (Reading.peek 1 >>= next') :=
  fun near far => echoes (echo.near.get (near + 1)) (echo.far.get (far + 1)) near far

theorem advance : Echoes echo Token.lexeme (lexeme :: rest) Reading.advance Reading.advance := by
  intro near far beside value stop outcome
  rw [Reading.advance_eq_of_stands beside.near_ahead.stands] at outcome
  cases outcome
  exact ⟨_, _, rest, Reading.advance_eq_of_stands beside.far_ahead.stands,
    beside.far_ahead.get.trans beside.near_ahead.get.symm, beside.succ⟩

theorem advance_bind {next next' : Token → Reading α}
    (echoes : ∀ token token', token'.kind = token.kind → token'.text = token.text →
      Echoes echo view rest (next token) (next' token')) :
    Echoes echo view (lexeme :: rest) (Reading.advance >>= next) (Reading.advance >>= next') := by
  intro near far beside value stop outcome
  rw [bind_eq_of_ok (Reading.advance_eq_of_stands beside.near_ahead.stands)] at outcome
  rw [bind_eq_of_ok (Reading.advance_eq_of_stands beside.far_ahead.stands)]
  have sameToken := beside.far_ahead.get.trans beside.near_ahead.get.symm
  exact echoes _ _ (congrArg Lexeme.kind sameToken) (congrArg Lexeme.text sameToken) _ _ beside.succ
    value stop outcome

/-- A repetition goes on and ends on both streams at once. -/
theorem loop {step step' : α → Reading (ForInStep α)} {value value' : α}
    (steps : ∀ value value' left, view value' = view value →
      Echoes echo (viewStep view) left (step value) (step' value'))
    (same : view value' = view value) :
    Echoes echo view left (Reading.loop step value) (Reading.loop step' value') := by
  intro near far beside result stop outcome
  unfold Reading.loop at outcome ⊢
  generalize isStream : echo.near = stream at outcome
  fun_induction repeatFrom id step value stream near generalizing far value' left with
  | case1 => cases outcome
  | case2 value near last after stepped =>
      subst isStream
      cases outcome
      rcases steps value value' left same near far beside _ _ stepped with
        ⟨last', stop', left', stepped', sameLast, beside'⟩
      cases last' with
      | yield last' => cases sameLast
      | done last' =>
          rw [repeatFrom_eq_of_done stepped']
          exact ⟨last', stop', left', rfl, ForInStep.done.inj sameLast, beside'⟩
  | case3 value near more after stepped further ih =>
      subst isStream
      rcases steps value value' left same near far beside _ _ stepped with
        ⟨more', stop', left', stepped', sameMore, beside'⟩
      cases more' with
      | done more' => cases sameMore
      | yield more' =>
          have further' := (beside.further_iff beside').1 further
          rw [repeatFrom_eq_of_yield stepped' further'.1 further'.2]
          exact ih (ForInStep.yield.inj sameMore) stop' beside' outcome
  | case4 value near more after stepped stays =>
      subst isStream
      cases outcome
      rcases steps value value' left same near far beside _ _ stepped with
        ⟨more', stop', left', stepped', sameMore, beside'⟩
      cases more' with
      | done more' => cases sameMore
      | yield more' =>
          rw [repeatFrom_eq_of_stuck stepped' (mt (beside.further_iff beside').2 stays)]
          exact ⟨more', stop', left', rfl, ForInStep.yield.inj sameMore, beside'⟩

end Echoes

/-- What a rule has read on the way through the word. -/
theorem Echo.Leads.exists_eq_append {echo : Echo} {left left' : List Lexeme} {rule : Reading α}
    {value : α} {meaning : List Token → α → Prop}
    (leads : echo.Leads left rule value left')
    (accounts : ∀ start, AccountsFor echo.near start rule meaning) :
    ∃ tokens, meaning tokens value ∧ left = tokens.map Token.lexeme ++ left' := by
  rcases leads with ⟨near, stop, before, outcome, after⟩
  rcases accounts near value stop outcome with ⟨inOrder, reading⟩
  exact ⟨_, reading, before.between_eq after inOrder⟩

namespace Reading

variable {echo : Echo} {view : α → β} {left left' : List Lexeme} {kind : Token.Kind}

theorem skipIf_echoes (notEnd : kind ≠ .blockEnd) (notName : kind ≠ .name) :
    Echoes echo id left (skipIf kind) (skipIf kind) := by
  cases left with
  | nil =>
      apply Echoes.current_nil
      intro token token' isEnd isName
      rw [if_neg (isEnd ▸ notEnd.symm), if_neg (isName ▸ notName.symm)]
      exact .pure rfl
  | cons lexeme rest =>
      apply Echoes.current_cons
      rintro token token' rfl sameKind sameText
      rw [sameKind]
      split
      · exact .advance_bind fun _ _ _ _ => .pure rfl
      · exact .pure rfl

theorem skipIf_leads {isThere : Bool} (notEnd : kind ≠ .eof)
    (leads : echo.Leads left (skipIf kind) isThere left') :
    (isThere = true ∧ ∃ lexeme, lexeme.kind = kind ∧ left = lexeme :: left') ∨
      (isThere = false ∧ left = left') := by
  rcases leads.exists_eq_append fun _ => skipIf_accounts echo.isClosed notEnd with
    ⟨tokens, ⟨isTrue, token, isKind, rfl⟩ | ⟨isFalse, rfl⟩, split⟩
  · exact Or.inl ⟨isTrue, token.lexeme, isKind, split⟩
  · exact Or.inr ⟨isFalse, split⟩

theorem expect_echoes (notEnd : kind ≠ .blockEnd) (expected : String) :
    Echoes echo Token.lexeme left (expect kind expected) (expect kind expected) := by
  cases left with
  | nil =>
      apply Echoes.current_nil
      intro token token' isEnd isName
      rw [if_neg (isEnd ▸ notEnd.symm)]
      exact .refuse _ _
  | cons lexeme rest =>
      apply Echoes.current_cons
      rintro token token' rfl sameKind sameText
      rw [sameKind]
      split
      · exact .advance
      · exact .refuse _ _

theorem identifier_echoes : Echoes echo id left identifier identifier := by
  cases left with
  | nil => exact .of_reads fun _ => identifier_reads echo.isClosed
  | cons lexeme rest =>
      apply Echoes.current_cons
      rintro token token' rfl sameKind sameText
      rw [sameKind]
      split
      · exact .advance_bind fun _ _ _ _ => .pure sameText
      · exact .refuse _ _

theorem identifier_bind_echoes {lexeme : Lexeme} {next next' : String → Reading α}
    (isName : lexeme.kind = .name)
    (echoes : Echoes echo view left (next lexeme.text) (next' lexeme.text)) :
    Echoes echo view (lexeme :: left) (identifier >>= next) (identifier >>= next') := by
  intro near far beside value stop outcome
  rw [bind_eq_of_ok (identifier_eq_of_stands beside.near_ahead.stands isName)] at outcome
  rw [bind_eq_of_ok (identifier_eq_of_stands beside.far_ahead.stands isName)]
  exact echoes _ _ beside.succ value stop outcome

/-- The point in front of a name is read, unless it is the last token of the word. -/
theorem dottedStep_echoes (noPoint : ∀ lexeme ∈ echo.word.getLast?, lexeme.kind ≠ .dot)
    (name : String) : Echoes echo (viewStep id) left (dottedStep name) (dottedStep name) := by
  cases left with
  | nil =>
      apply Echoes.current_nil
      intro token token' isEnd isName
      apply Echoes.peek_any
      intro following following'
      rw [if_neg (by simp [isEnd]), if_neg (by simp [isName])]
      exact .pure rfl
  | cons lexeme rest =>
      apply Echoes.current_cons
      rintro token token' rfl sameKind sameText
      rw [sameKind]
      apply Echoes.peek_cons
      · rintro following following' rest rfl sameFollowing
        rw [sameFollowing]
        split
        · refine .advance_bind fun _ _ _ _ => .advance_bind fun part part' _ samePart => ?_
          exact .pure (congrArg (fun text => ForInStep.yield (name ++ "." ++ text)) samePart)
        · exact .pure rfl
      · rintro following following' rfl isEnd isName
        apply Echoes.of_isSuffix
        intro isSuffix
        have notPoint : token.kind ≠ .dot := by
          rcases isSuffix with ⟨before, split⟩
          exact noPoint token.lexeme (by simp [← split])
        rw [if_neg (by simp [isEnd]), if_neg (by simp [notPoint])]
        exact .pure rfl

theorem dottedName_echoes (noPoint : ∀ lexeme ∈ echo.word.getLast?, lexeme.kind ≠ .dot) :
    Echoes echo id left dottedName dottedName := by
  apply identifier_echoes.bind_same
  intro name left'
  apply Echoes.loop
  · rintro _ _ left rfl
    exact dottedStep_echoes noPoint _
  · rfl

section CommaList

variable {close : Token.Kind} {expected : String} {isEmpty : α → Bool} {item : α → Reading α}
  {none none' : α}
  (notEnd : close ≠ .blockEnd) (notName : close ≠ .name)
  (sameEmpty : ∀ items items', view items' = view items → isEmpty items' = isEmpty items)
  (each : ∀ items items' left, view items' = view items →
    Echoes echo view left (item items) (item items'))

include notEnd notName sameEmpty each

theorem commaStep_echoes {items items' : α} (same : view items' = view items) :
    Echoes echo (viewStep view) left (commaStep close expected isEmpty item items)
      (commaStep close expected isEmpty item items') := by
  have further (left : List Lexeme) : Echoes echo (viewStep view) left
      (do return ForInStep.yield (← item items)) (do return ForInStep.yield (← item items')) := by
    apply (each items items' left same).bind
    intro _ _ _ sameItems
    exact .pure (congrArg ForInStep.yield sameItems)
  have unlessClosed {next next' : Reading (ForInStep α)}
      (echoes : ∀ left, Echoes echo (viewStep view) left next next') (left : List Lexeme) :
      Echoes echo (viewStep view) left
        (do if (← current).kind = close then return .done items else next)
        (do if (← current).kind = close then return .done items' else next') := by
    cases left with
    | nil =>
        apply Echoes.current_nil
        intro token token' isEnd isName
        rw [if_neg (isEnd ▸ notEnd.symm), if_neg (isName ▸ notName.symm)]
        exact echoes []
    | cons lexeme rest =>
        apply Echoes.current_cons
        rintro token token' rfl sameKind sameText
        rw [sameKind]
        split
        · exact .pure (congrArg ForInStep.done same)
        · exact echoes _
  apply unlessClosed
  intro left
  rw [sameEmpty items items' same]
  split
  · exact further left
  · apply (expect_echoes (by decide) expected).bind
    intro _ _ left' _
    exact unlessClosed further left'

theorem commaList_echoes (reads : ∀ items start, Reads echo.near 1 start (item items))
    (same : view none' = view none) :
    Echoes echo view left (commaList close expected isEmpty item none)
      (commaList close expected isEmpty item none') := by
  have looped : Echoes echo view left (loop (commaStep close expected isEmpty item) none)
      (loop (commaStep close expected isEmpty item) none') :=
    .loop (fun _ _ _ => commaStep_echoes notEnd notName sameEmpty each) same
  apply looped.bind_of_leads
  rintro items items' left' sameItems ⟨near, stop, before, outcome, after⟩
  cases left' with
  | cons lexeme rest => exact .advance_bind fun _ _ _ _ => .pure sameItems
  | nil =>
      -- The items end where the closing token is, which is not the end of the tag.
      have found : Meets
          (fun _ stop => Passes echo.near near stop ∧ (echo.near.get stop).kind = close)
          (Fails near) (loop (commaStep close expected isEmpty item) none echo.near near) :=
        loop_commaStep_meets echo.isClosed reads
      rw [outcome] at found
      exact absurd (found.2.symm.trans (Echo.kind_of_nil after)) notEnd

end CommaList

end Reading

end Stencil
