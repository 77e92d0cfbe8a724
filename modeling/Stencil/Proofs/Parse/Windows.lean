import Stencil.Proofs.Parse.Stretch

/-!
# The same tokens in two streams

A window is a stream whose tokens stand in another, longer stream as well, without the end of the
template if the longer stream goes on there with a tag. A rule that is used at a place of the window
and at the same place of the longer stream gives the same outcome: rules look at most one token
beyond what they read, and take the beginning of a tag for a reason to stop just as the end of the
template. What can differ is the outcome of a rule that ran into the end of the window.
-/

namespace Stencil

/-- Kinds of token that begin a tag or a comment. -/
def Token.Kind.opensTag (kind : Token.Kind) : Bool :=
  kind ∈ [.blockBegin, .variableBegin, .commentBegin]

namespace Token

theorem Kind.isBoundary_of_opensTag {kind : Kind} (opens : kind.opensTag = true) :
    kind.isBoundary = true := by
  simp only [Kind.opensTag, Kind.isBoundary, List.mem_cons, List.not_mem_nil, or_false,
    decide_eq_true_eq] at opens ⊢
  tauto

variable {token : Token}

theorem isBoundary_cases (boundary : token.kind.isBoundary = true) :
    token.kind = .blockBegin ∨ token.kind = .variableBegin ∨ token.kind = .commentBegin ∨
      token.kind = .eof := by
  simpa only [Kind.isBoundary, List.mem_cons, List.not_mem_nil, or_false,
    decide_eq_true_eq] using boundary

theorem kind_ne_of_isBoundary (boundary : token.kind.isBoundary = true) {kind : Kind}
    (other : kind.isBoundary = false) : token.kind ≠ kind := by
  intro isKind
  rw [isKind, other] at boundary
  cases boundary

theorem word?_of_isBoundary (boundary : token.kind.isBoundary = true) : token.word? = none := by
  cases found : token.word? with
  | none => rfl
  | some word =>
      have inner := Token.isInner_of_word? found
      rcases isBoundary_cases boundary with isKind | isKind | isKind | isKind <;>
        rw [isKind] at inner <;> cases inner

theorem isWord_of_isBoundary (boundary : token.kind.isBoundary = true) (word : String) :
    token.isWord word = false := by
  simp [Token.isWord, word?_of_isBoundary boundary]

end Token

/-- Errors that a template ends too early. -/
def SyntaxError.isUnfinished : SyntaxError → Bool
  | .endOfTemplate .. | .unclosed .. => true
  | _ => false

/-- A stream whose tokens another stream shows too, from `shift` on. Where it ends, the other stream
ends as well or goes on with a tag. -/
structure Window where
  near : TokenStream
  far : TokenStream
  shift : Nat
  /-- The place of the end of the template in the near stream. -/
  limit : Nat
  size_near : near.size = limit + 1
  room : limit + shift < far.size
  atLimit : (near.get limit).kind = .eof
  same : ∀ index, index < limit → far.get (index + shift) = near.get index
  sourceName : far.sourceName = near.sourceName
  seam : (∀ index, far.significant.toList.drop (index + shift) =
      near.significant.toList.drop index) ∨
    (far.get (limit + shift)).kind.opensTag = true ∧
      ∀ index, (near.get index).kind = .blockBegin → (near.get (index + 1)).isWord "call" = false

namespace Window

variable (window : Window)

/-- The other stream ends where the window ends. -/
def Closes : Prop :=
  ∀ index, window.far.significant.toList.drop (index + window.shift) =
    window.near.significant.toList.drop index

/-- The other stream goes on with a tag where the window ends. -/
def Opens : Prop := (window.far.get (window.limit + window.shift)).kind.opensTag = true

/-- Two places are the same place of the window, not before `low`. -/
structure Beside (low near far : Nat) : Prop where
  later : low ≤ near
  inside : near ≤ window.limit
  shifted : far = near + window.shift

/-- Two states of a parse are at the same place of the window and inside of equally many
constructs. -/
structure Placed (depth low : Nat) (near far : Place) : Prop where
  beside : window.Beside low near.cursor far.cursor
  near_depth : near.depth = depth
  far_depth : far.depth = depth

variable {window} {low start depth : Nat}

theorem isClosed_near : window.near.IsClosed := by
  rw [TokenStream.IsClosed, window.size_near, Nat.add_sub_cancel]
  exact window.atLimit

theorem get_limit_of_closes (closes : window.Closes) :
    window.far.get (window.limit + window.shift) = window.near.get window.limit := by
  have rest := closes window.limit
  have sizeNear := window.size_near
  rw [TokenStream.drop_eq_cons window.room,
    TokenStream.drop_eq_cons (show window.limit < window.near.size by omega)] at rest
  exact (List.cons.inj rest).1

theorem same_or_opens : window.far.get (window.limit + window.shift) =
    window.near.get window.limit ∨ window.Opens := by
  rcases window.seam with closes | opens
  · exact Or.inl (window.get_limit_of_closes closes)
  · exact Or.inr opens.1

theorem isBoundary_near : (window.near.get window.limit).kind.isBoundary = true := by
  rw [window.atLimit]
  rfl

theorem isBoundary_far :
    (window.far.get (window.limit + window.shift)).kind.isBoundary = true := by
  rcases window.same_or_opens with sameToken | opens
  · rw [sameToken]
    exact window.isBoundary_near
  · exact Token.Kind.isBoundary_of_opensTag opens

/-- A place whose token is not the end of the template lies before the end of the window. -/
theorem lt_limit (inside : start ≤ window.limit) (notEnd : (window.near.get start).kind ≠ .eof) :
    start < window.limit := by
  apply lt_of_le_of_ne inside
  rintro rfl
  exact notEnd window.atLimit

theorem next_near (inside : start < window.limit) : window.near.next start = start + 1 := by
  have sizeNear := window.size_near
  rw [TokenStream.next, if_pos (by omega)]

theorem next_far (inside : start < window.limit) :
    window.far.next (start + window.shift) = start + 1 + window.shift := by
  have room := window.room
  rw [TokenStream.next, if_pos (by omega)]
  omega

theorem Beside.succ {far : Nat} (beside : window.Beside low start far)
    (inside : start < window.limit) : window.Beside low (start + 1) (start + 1 + window.shift) :=
  ⟨Nat.le_succ_of_le beside.later, inside, rfl⟩

/-- A rule that moves on between places of the window moves on in both streams. -/
theorem Beside.further_iff {near far near' far' : Nat} (before : window.Beside low near far)
    (behind : window.Beside low near' far') :
    near < near' ∧ near < window.near.size ↔ far < far' ∧ far < window.far.size := by
  have sizeNear := window.size_near
  have room := window.room
  have inside := before.inside
  have shifted := before.shifted
  have shifted' := behind.shifted
  omega

theorem Beside.get_eq {far : Nat} (beside : window.Beside low start far)
    (inside : start < window.limit) : window.far.get far = window.near.get start := by
  rw [beside.shifted]
  exact window.same start inside

end Window

variable {σ α β : Type}

/-- The outcomes of a rule on both sides of a window: the same value or error with corresponding
states. A nesting that is too deep is not compared, and a rule that ran into the end of the window
may do anything where the other stream goes on. One rule tells the place of the next token, which
differs at the end of the window. -/
inductive Agree (window : Window) (beside : Nat → σ → σ → Prop) (low : Nat) :
    EStateM.Result SyntaxError σ α → EStateM.Result SyntaxError σ α → Prop where
  | ok {value : α} {near far : σ} (places : beside low near far) :
      Agree window beside low (.ok value near) (.ok value far)
  | error {error : SyntaxError} {near far : σ} (places : beside low near far) :
      Agree window beside low (.error error near) (.error error far)
  | moved {near far : σ} (places : beside low near far)
      (atLimit : beside window.limit near far) :
      Agree window beside low
        (.error (.violation .captureTargets (window.near.get window.limit).span) near)
        (.error (.violation .captureTargets
          (window.far.get (window.limit + window.shift)).span) far)
  | deep {levels : Nat} {span : Span} {near : σ} {outcome : EStateM.Result SyntaxError σ α} :
      Agree window beside low (.error (.tooDeep levels span) near) outcome
  | unfinished {error : SyntaxError} {near : σ} {outcome : EStateM.Result SyntaxError σ α}
      (opens : window.Opens) (isUnfinished : error.isUnfinished = true) :
      Agree window beside low (.error error near) outcome

theorem Agree.bind {window : Window} {beside : Nat → σ → σ → Prop} {low : Nat} {near far : σ}
    {rule rule' : ReaderT TokenStream (EStateM SyntaxError σ) α}
    {next next' : α → ReaderT TokenStream (EStateM SyntaxError σ) β}
    (first : Agree window beside low (rule window.near near) (rule' window.far far))
    (rest : ∀ value near' far', rule window.near near = .ok value near' →
      beside low near' far' →
      Agree window beside low (next value window.near near') (next' value window.far far')) :
    Agree window beside low ((rule >>= next) window.near near)
      ((rule' >>= next') window.far far) := by
  generalize outcome : rule window.near near = result at first
  generalize outcome' : rule' window.far far = result' at first
  cases first with
  | @ok value near' far' places =>
      rw [bind_eq_of_ok outcome, bind_eq_of_ok outcome']
      exact rest value near' far' outcome places
  | error places =>
      rw [bind_eq_of_error outcome, bind_eq_of_error outcome']
      exact .error places
  | moved places atLimit =>
      rw [bind_eq_of_error outcome, bind_eq_of_error outcome']
      exact .moved places atLimit
  | deep =>
      rw [bind_eq_of_error outcome]
      exact .deep
  | unfinished opens isUnfinished =>
      rw [bind_eq_of_error outcome]
      exact .unfinished opens isUnfinished

theorem Agree.map {window : Window} {beside : Nat → σ → σ → Prop} {low : Nat} {near far : σ}
    {rule rule' : ReaderT TokenStream (EStateM SyntaxError σ) α} {change : α → β}
    (first : Agree window beside low (rule window.near near) (rule' window.far far)) :
    Agree window beside low ((change <$> rule) window.near near)
      ((change <$> rule') window.far far) := by
  have agree : Agree window beside low
      ((rule >>= fun value => pure (change value)) window.near near)
      ((rule' >>= fun value => pure (change value)) window.far far) :=
    first.bind fun _ _ _ _ places => .ok places
  exact agree

/-- Two rules, used at corresponding states on the two sides of a window, agree. -/
def Alike (window : Window) (beside : Nat → σ → σ → Prop) (near far : σ)
    (rule rule' : ReaderT TokenStream (EStateM SyntaxError σ) α) : Prop :=
  ∀ low, beside low near far → Agree window beside low (rule window.near near) (rule' window.far far)

namespace Alike

variable {window : Window} {beside : Nat → σ → σ → Prop} {near far : σ}
  {rule rule' : ReaderT TokenStream (EStateM SyntaxError σ) α}

theorem pure (value : α) : Alike window beside near far (Pure.pure value) (Pure.pure value) := by
  intro low places
  exact .ok places

theorem throw (error : SyntaxError) :
    Alike window beside near far (throw error : ReaderT TokenStream (EStateM SyntaxError σ) α)
      (throw error) := by
  intro low places
  exact .error places

theorem bind {next next' : α → ReaderT TokenStream (EStateM SyntaxError σ) β}
    (first : Alike window beside near far rule rule')
    (rest : ∀ value near' far', rule window.near near = .ok value near' →
      Alike window beside near' far' (next value) (next' value)) :
    Alike window beside near far (rule >>= next) (rule' >>= next') := by
  intro low places
  apply (first low places).bind
  intro value near' far' outcome places'
  exact rest value near' far' outcome low places'

theorem map {change : α → β} (alike : Alike window beside near far rule rule') :
    Alike window beside near far (change <$> rule) (change <$> rule') :=
  alike.bind fun value _ _ _ => .pure (change value)

theorem originAt_bind {line : Nat} {place place' : Nat} {next next' : Origin → Reading β}
    (alike : Alike window window.Beside place place' (next ⟨line, window.near.sourceName⟩)
      (next' ⟨line, window.near.sourceName⟩)) :
    Alike window window.Beside place place' (Reading.originAt line >>= next)
      (Reading.originAt line >>= next') := by
  intro low places
  change Agree window window.Beside low (next _ window.near place) (next' _ window.far place')
  rw [window.sourceName]
  exact alike low places

/-- A repetition goes on and ends on both sides at once. -/
theorem repeatFrom {cursor : σ → Nat}
    {step step' : α → ReaderT TokenStream (EStateM SyntaxError σ) (ForInStep α)}
    (corresponds : ∀ low near far, beside low near far →
      window.Beside low (cursor near) (cursor far))
    (alike : ∀ value near far, Alike window beside near far (step value) (step' value))
    (value : α) :
    Alike window beside near far (Stencil.repeatFrom cursor step value)
      (Stencil.repeatFrom cursor step' value) := by
  intro low places
  generalize isStream : window.near = stream
  fun_induction Stencil.repeatFrom cursor step value stream near generalizing far with
  | case1 value near error after outcome =>
      subst isStream
      have agree := alike value near far low places
      rw [outcome] at agree
      generalize outcome' : step' value window.far far = result' at agree
      cases agree with
      | error places' =>
          rw [repeatFrom_eq_of_error outcome']
          exact .error places'
      | moved places' atLimit =>
          rw [repeatFrom_eq_of_error outcome']
          exact .moved places' atLimit
      | deep => exact .deep
      | unfinished opens isUnfinished => exact .unfinished opens isUnfinished
  | case2 value near last after outcome =>
      subst isStream
      have agree := alike value near far low places
      rw [outcome] at agree
      generalize outcome' : step' value window.far far = result' at agree
      cases agree with
      | ok places' =>
          rw [repeatFrom_eq_of_done outcome']
          exact .ok places'
  | case3 value near more after outcome further ih =>
      subst isStream
      have agree := alike value near far low places
      rw [outcome] at agree
      generalize outcome' : step' value window.far far = result' at agree
      cases agree with
      | ok places' =>
          have moved := (corresponds low _ _ places).further_iff (corresponds low _ _ places')
          have further' := moved.1 further
          rw [repeatFrom_eq_of_yield outcome' further'.1 further'.2]
          exact ih places'
  | case4 value near more after outcome stays =>
      subst isStream
      have agree := alike value near far low places
      rw [outcome] at agree
      generalize outcome' : step' value window.far far = result' at agree
      cases agree with
      | ok places' =>
          have moved := (corresponds low _ _ places).further_iff (corresponds low _ _ places')
          rw [repeatFrom_eq_of_stuck outcome' (mt moved.2 stays)]
          exact .ok places'

end Alike

/-- A rule does the same at every place of a window. -/
def Steady (window : Window) (rule : Reading α) : Prop :=
  ∀ near far, Alike window window.Beside near far rule rule

section

variable {window : Window} {near far : Nat} {rule : Reading α}

namespace Steady

theorem pure (value : α) : Steady window (Pure.pure value) :=
  fun _ _ => .pure value

theorem bind {next : α → Reading β} (first : Steady window rule)
    (rest : ∀ value, Steady window (next value)) : Steady window (rule >>= next) :=
  fun near far => (first near far).bind fun value near far _ => rest value near far

theorem map {change : α → β} (steady : Steady window rule) : Steady window (change <$> rule) :=
  fun near far => (steady near far).map

theorem loop {step : α → Reading (ForInStep α)} (steady : ∀ value, Steady window (step value))
    (value : α) : Steady window (Reading.loop step value) := by
  intro near far
  apply Alike.repeatFrom
  · intro low near far places
    exact places
  · exact steady

end Steady

theorem Agree.advance_bind {next : Token → Reading β} {low start : Nat}
    (places : window.Beside low near far) (inside : near < window.limit)
    (agree : Agree window window.Beside start
      (next (window.near.get near) window.near (near + 1))
      (next (window.near.get near) window.far (near + 1 + window.shift))) :
    Agree window window.Beside start ((Reading.advance >>= next) window.near near)
      ((Reading.advance >>= next) window.far far) := by
  change Agree window window.Beside start
    (next (window.near.get near) window.near (window.near.next near))
    (next (window.far.get far) window.far (window.far.next far))
  rwa [places.get_eq inside, window.next_near inside, places.shifted, window.next_far inside]

namespace Alike

/-- A look at the next token. -/
theorem current {next next' : Token → Reading β}
    (within : near < window.limit →
      Alike window window.Beside near far (next (window.near.get near))
        (next' (window.near.get near)))
    (atSeam : near = window.limit →
      Alike window window.Beside near far (next (window.near.get window.limit))
        (next' (window.far.get (window.limit + window.shift)))) :
    Alike window window.Beside near far (Reading.current >>= next)
      (Reading.current >>= next') := by
  intro low places
  change Agree window window.Beside low (next (window.near.get near) window.near near)
    (next' (window.far.get far) window.far far)
  rcases Nat.lt_or_eq_of_le places.inside with inside | rfl
  · rw [places.get_eq inside]
    exact within inside low places
  · rw [places.shifted]
    have alike := atSeam rfl low places
    rwa [places.shifted] at alike

/-- A look at the next token, which makes no difference at the end of a tag or beyond. -/
theorem current_or {next : Token → Reading β} {rule : Reading β}
    (within : near < window.limit →
      Alike window window.Beside near far (next (window.near.get near))
        (next (window.near.get near)))
    (outside : ∀ token : Token, token.kind.isBoundary = true → next token = rule)
    (alike : Alike window window.Beside near far rule rule) :
    Alike window window.Beside near far (Reading.current >>= next)
      (Reading.current >>= next) := by
  refine current within fun _ => ?_
  rw [outside _ window.isBoundary_near, outside _ window.isBoundary_far]
  exact alike

theorem refuse_atSeam (expected : String) :
    Alike window window.Beside near far
      (Reading.refuse (window.near.get window.limit) expected : Reading α)
      (Reading.refuse (window.far.get (window.limit + window.shift)) expected) := by
  intro low places
  rcases window.same_or_opens with sameToken | opens
  · rw [sameToken]
    exact .error places
  · apply Agree.unfinished opens
    rw [SyntaxError.ofToken, window.atLimit]
    rfl

/-- A look at the next token, which is refused at the end of a tag or beyond. -/
theorem current_or_refuse (expected : String) {next : Token → Reading β}
    (within : near < window.limit →
      Alike window window.Beside near far (next (window.near.get near))
        (next (window.near.get near)))
    (outside : ∀ token : Token, token.kind.isBoundary = true →
      next token = Reading.refuse token expected) :
    Alike window window.Beside near far (Reading.current >>= next)
      (Reading.current >>= next) := by
  refine current within fun _ => ?_
  rw [outside _ window.isBoundary_near, outside _ window.isBoundary_far]
  exact refuse_atSeam expected

/-- A rule that reads a token does not succeed at the end of a window. -/
theorem bind_atSeam {next next' : α → Reading β} (steady : Steady window rule)
    (reads : Reads window.near 1 window.limit rule) (atLimit : near = window.limit) :
    Alike window window.Beside near far (rule >>= next) (rule >>= next') := by
  subst atLimit
  refine (steady _ far).bind fun value after far' outcome => ?_
  rw [Reads, outcome] at reads
  have inner := reads.1.inner window.limit (Nat.le_refl _) reads.2
  exact absurd window.atLimit (Token.Kind.ne_eof_of_isInner inner)

/-- A look at the token after the next one. -/
theorem peek_or {next : Token → Reading β} {rule : Reading β} (inside : near < window.limit)
    (within : near + 1 < window.limit →
      Alike window window.Beside near far (next (window.near.get (near + 1)))
        (next (window.near.get (near + 1))))
    (outside : ∀ token : Token, token.kind.isBoundary = true → next token = rule)
    (alike : Alike window window.Beside near far rule rule) :
    Alike window window.Beside near far (Reading.peek 1 >>= next) (Reading.peek 1 >>= next) := by
  intro low places
  change Agree window window.Beside low (next (window.near.get (near + 1)) window.near near)
    (next (window.far.get (far + 1)) window.far far)
  have sameShift : far + 1 = near + 1 + window.shift := by
    rw [places.shifted]
    omega
  rcases Nat.lt_or_eq_of_le inside with further | last
  · rw [sameShift, window.same (near + 1) further]
    exact within further low places
  · rw [sameShift, show near + 1 = window.limit from last,
      outside _ window.isBoundary_near, outside _ window.isBoundary_far]
    exact alike low places

theorem advance_bind {next : Token → Reading β} (inside : near < window.limit)
    (alike : Alike window window.Beside (near + 1) (near + 1 + window.shift)
      (next (window.near.get near)) (next (window.near.get near))) :
    Alike window window.Beside near far (Reading.advance >>= next)
      (Reading.advance >>= next) := by
  intro low places
  exact .advance_bind places inside (alike low (places.succ inside))

/-- A repetition whose first step reads a token gets further. -/
theorem loop_of_yield {step : α → Reading (ForInStep α)} {value more : α} {low : Nat}
    (places : window.Beside low near far) (inside : near < window.limit)
    (first : ∀ stream cursor, stream.get cursor = window.near.get near →
      step value stream cursor = .ok (.yield more) (stream.next cursor))
    (steady : ∀ value, Steady window (step value)) :
    Agree window window.Beside (near + 1) (Reading.loop step value window.near near)
      (Reading.loop step value window.far far) := by
  have nearNext := window.next_near inside
  have farNext := window.next_far inside
  have sizeNear := window.size_near
  have room := window.room
  have shifted := places.shifted
  rw [← shifted] at farNext
  simp only [Reading.loop]
  rw [repeatFrom_eq_of_yield (first window.near near rfl) (by simp only [id]; omega)
      (by simp only [id]; omega),
    repeatFrom_eq_of_yield (first window.far far (places.get_eq inside)) (by simp only [id]; omega)
      (by simp only [id]; omega), nearNext, farNext]
  exact Steady.loop steady more _ _ _ ⟨Nat.le_refl _, inside, rfl⟩

theorem advance (inside : near < window.limit) :
    Alike window window.Beside near far Reading.advance Reading.advance := by
  have alike : Alike window window.Beside near far (Reading.advance >>= Pure.pure)
      (Reading.advance >>= Pure.pure) := advance_bind inside (.pure _)
  exact alike

end Alike

namespace Reading

theorem peek_bind_const (count : Nat) (rule : Reading β) : (peek count >>= fun _ => rule) = rule :=
  rfl

variable (window)

theorem expect_steady {kind : Token.Kind} (inner : kind.isBoundary = false) (expected : String) :
    Steady window (expect kind expected) := by
  intro near far
  apply Alike.current_or_refuse
  · intro inside
    split
    · exact .advance inside
    · exact .throw _
  · intro token boundary
    exact if_neg (Token.kind_ne_of_isBoundary boundary inner)

theorem expectWord_steady (word : String) : Steady window (expectWord word) := by
  intro near far
  apply Alike.current_or_refuse
  · intro inside
    split
    · exact .advance_bind inside (.pure _)
    · exact .throw _
  · intro token boundary
    exact if_neg (by simp [Token.isWord_of_isBoundary boundary])

theorem expectBlockEnd_steady : Steady window expectBlockEnd :=
  expect_steady window rfl _

theorem skipIf_steady {kind : Token.Kind} (inner : kind.isBoundary = false) :
    Steady window (skipIf kind) := by
  intro near far
  apply Alike.current_or
  · intro inside
    split
    · exact .advance_bind inside (.pure _)
    · exact .pure _
  · intro token boundary
    exact if_neg (Token.kind_ne_of_isBoundary boundary inner)
  · exact .pure _

theorem skipWord_steady (word : String) : Steady window (skipWord word) := by
  intro near far
  apply Alike.current_or
  · intro inside
    split
    · exact .advance_bind inside (.pure _)
    · exact .pure _
  · intro token boundary
    exact if_neg (by simp [Token.isWord_of_isBoundary boundary])
  · exact .pure _

theorem identifier_steady : Steady window identifier := by
  intro near far
  apply Alike.current_or_refuse
  · intro inside
    split
    · exact .advance_bind inside (.pure _)
    · exact .throw _
  · intro token boundary
    exact if_neg (Token.kind_ne_of_isBoundary boundary rfl)

theorem dottedStep_steady (name : String) : Steady window (dottedStep name) := by
  intro near far
  apply Alike.current_or
  · intro inside
    apply Alike.peek_or inside
    · intro further
      split
      · exact .advance_bind inside (.advance_bind further (.pure _))
      · exact .pure _
    · intro token boundary
      exact if_neg fun isPart => Token.kind_ne_of_isBoundary boundary rfl isPart.2
    · exact .pure _
  · intro token boundary
    have notDot : token.kind ≠ .dot := Token.kind_ne_of_isBoundary boundary rfl
    simp only [notDot, false_and, if_false]
    rfl
  · exact .pure _

theorem dottedName_steady : Steady window dottedName :=
  (identifier_steady window).bind fun name => .loop (dottedStep_steady window) name

/-- A list of items with commas between them; each item reads a token at least. -/
theorem commaList_steady {close : Token.Kind} {expected : String} {isEmpty : α → Bool}
    {item : α → Reading α} {none : α} (inner : close.isBoundary = false)
    (reads : ∀ items start, Reads window.near 1 start (item items))
    (steady : ∀ items, Steady window (item items)) :
    Steady window (commaList close expected isEmpty item none) := by
  have step (items : α) : Steady window (commaStep close expected isEmpty item items) := by
    have furtherItem : Steady window (item items >>= fun items => pure (ForInStep.yield items)) :=
      (steady items).bind fun items => .pure _
    have afterComma : Steady window (do
        if (← current).kind = close then return ForInStep.done items
        else return .yield (← item items)) := by
      intro near far
      apply Alike.current_or
      · intro inside
        split
        · exact .pure _
        · exact furtherItem near far
      · intro token boundary
        exact if_neg (Token.kind_ne_of_isBoundary boundary inner)
      · exact furtherItem near far
    have further : Steady window (do
        if isEmpty items then return ForInStep.yield (← item items)
        else
          let _ ← expect .comma expected
          if (← current).kind = close then return .done items
          else return .yield (← item items)) := by
      intro near far
      split
      · exact furtherItem near far
      · exact (expect_steady window rfl expected near far).bind fun _ near far _ =>
          afterComma near far
    intro near far
    apply Alike.current_or
    · intro inside
      split
      · exact .pure _
      · exact further near far
    · intro token boundary
      exact if_neg (Token.kind_ne_of_isBoundary boundary inner)
    · exact further near far
  intro near far
  apply (Steady.loop step none near far).bind
  intro items near' far' outcome low places
  have found : Meets (fun _ stop => Passes window.near near stop ∧
      (window.near.get stop).kind = close) (Fails near)
      (loop (commaStep close expected isEmpty item) none window.near near) :=
    loop_commaStep_meets window.isClosed_near reads
  rw [outcome] at found
  have inside : near' < window.limit := by
    apply window.lt_limit places.inside
    rw [found.2]
    rintro rfl
    cases inner
  refine Alike.advance_bind inside ?_ low places
  exact .pure items

end Reading

end

namespace Window.Placed

variable {window : Window} {depth low : Nat} {near far : Place}

theorem mono {lower : Nat} (placed : window.Placed depth low near far) (isLower : lower ≤ low) :
    window.Placed depth lower near far :=
  ⟨⟨Nat.le_trans isLower placed.beside.later, placed.beside.inside, placed.beside.shifted⟩,
    placed.near_depth, placed.far_depth⟩

variable [Limits]

theorem levels_eq (placed : window.Placed depth low near far) : near.levels = far.levels := by
  rw [Place.levels, Place.levels, placed.near_depth, placed.far_depth]

theorem entered (placed : window.Placed depth low near far) (construct : String) :
    window.Placed (depth + 1) low (near.entered construct) (far.entered construct) :=
  ⟨placed.beside, congrArg (· + 1) placed.near_depth, congrArg (· + 1) placed.far_depth⟩

omit [Limits] in
theorem left (placed : window.Placed (depth + 1) low near far) :
    window.Placed depth low near.left far.left :=
  ⟨placed.beside, congrArg (· - 1) placed.near_depth, congrArg (· - 1) placed.far_depth⟩

end Window.Placed

variable {window : Window} {depth low : Nat} {near far : Place}

theorem Agree.lower {start lower : Nat} {outcome outcome' : EStateM.Result SyntaxError Place α}
    (agree : Agree window (window.Placed depth) (start + 1) outcome outcome')
    (isLower : lower ≤ start) : Agree window (window.Placed depth) lower outcome outcome' := by
  have isLower' : lower ≤ start + 1 := Nat.le_succ_of_le isLower
  cases agree with
  | ok placed => exact .ok (placed.mono isLower')
  | error placed => exact .error (placed.mono isLower')
  | moved placed atLimit => exact .moved (placed.mono isLower') atLimit
  | deep => exact .deep
  | unfinished opens isUnfinished => exact .unfinished opens isUnfinished

theorem Agree.lift {rule rule' : Reading α} (placed : window.Placed depth low near far) {start : Nat}
    (agree : Agree window window.Beside start (rule window.near near.cursor)
      (rule' window.far far.cursor)) :
    Agree window (window.Placed depth) start ((liftM rule : Parsing α) window.near near)
      ((liftM rule' : Parsing α) window.far far) := by
  generalize outcome : rule window.near near.cursor = result at agree
  generalize outcome' : rule' window.far far.cursor = result' at agree
  cases agree with
  | ok places =>
      rw [Parsing.lift_eq_of_ok outcome, Parsing.lift_eq_of_ok outcome']
      exact .ok ⟨places, placed.near_depth, placed.far_depth⟩
  | error places =>
      rw [Parsing.lift_eq_of_error outcome, Parsing.lift_eq_of_error outcome']
      exact .error ⟨places, placed.near_depth, placed.far_depth⟩
  | moved places atLimit =>
      rw [Parsing.lift_eq_of_error outcome, Parsing.lift_eq_of_error outcome']
      exact .moved ⟨places, placed.near_depth, placed.far_depth⟩
        ⟨atLimit, placed.near_depth, placed.far_depth⟩
  | deep =>
      rw [Parsing.lift_eq_of_error outcome]
      exact .deep
  | unfinished opens isUnfinished =>
      rw [Parsing.lift_eq_of_error outcome]
      exact .unfinished opens isUnfinished

/-- One construct deeper; a construct that cannot be entered is nested too deeply. -/
theorem Agree.nested [Limits] {rule rule' : Parsing α} {construct : String} {start : Nat}
    (placed : window.Placed depth low near far)
    (agree : Agree window (window.Placed (depth + 1)) start
      (rule window.near (near.entered construct)) (rule' window.far (far.entered construct))) :
    Agree window (window.Placed depth) start (Parsing.nested construct rule window.near near)
      (Parsing.nested construct rule' window.far far) := by
  by_cases full : maxDepth ≤ depth
  · have fullNear : maxDepth ≤ near.depth := placed.near_depth.symm ▸ full
    simp only [Parsing.nested, Parsing.enter, if_pos fullNear]
    exact .deep
  · have roomNear : near.depth < maxDepth := placed.near_depth.symm ▸ Nat.lt_of_not_le full
    have roomFar : far.depth < maxDepth := placed.far_depth.symm ▸ Nat.lt_of_not_le full
    generalize outcome : rule window.near (near.entered construct) = result at agree
    generalize outcome' : rule' window.far (far.entered construct) = result' at agree
    cases agree with
    | ok places =>
        rw [Parsing.nested_eq_of_ok roomNear outcome, Parsing.nested_eq_of_ok roomFar outcome']
        exact .ok places.left
    | error places =>
        rw [Parsing.nested_eq_of_error roomNear outcome,
          Parsing.nested_eq_of_error roomFar outcome']
        exact .error places.left
    | moved places atLimit =>
        rw [Parsing.nested_eq_of_error roomNear outcome,
          Parsing.nested_eq_of_error roomFar outcome']
        exact .moved places.left atLimit.left
    | deep =>
        rw [Parsing.nested_eq_of_error roomNear outcome]
        exact .deep
    | unfinished opens isUnfinished =>
        rw [Parsing.nested_eq_of_error roomNear outcome]
        exact .unfinished opens isUnfinished

/-- A rule that begins with a token it reads gets further. -/
theorem Agree.bind_token {rule : Parsing Token} {next next' : Token → Parsing β}
    (placed : window.Placed depth low near far) (inside : near.cursor < window.limit)
    (reads : ∀ stream place, (stream.get place.cursor).kind = (window.near.get near.cursor).kind →
      rule stream place =
        .ok (stream.get place.cursor) { place with cursor := stream.next place.cursor })
    (rest : ∀ far : Place, Alike window (window.Placed depth) { near with cursor := near.cursor + 1 }
      far (next (window.near.get near.cursor)) (next' (window.near.get near.cursor))) :
    Agree window (window.Placed depth) (near.cursor + 1) ((rule >>= next) window.near near)
      ((rule >>= next') window.far far) := by
  have sameToken := placed.beside.get_eq inside
  rw [bind_eq_of_ok (reads window.near near rfl),
    bind_eq_of_ok (reads window.far far (by rw [sameToken])), sameToken, window.next_near inside,
    placed.beside.shifted, window.next_far inside]
  exact rest _ _ ⟨⟨Nat.le_refl _, inside, rfl⟩, placed.near_depth, placed.far_depth⟩

namespace Alike

theorem lift {rule rule' : Reading α}
    (alike : Alike window window.Beside near.cursor far.cursor rule rule') :
    Alike window (window.Placed depth) near far (liftM rule : Parsing α) (liftM rule') := by
  intro low placed
  exact .lift placed (alike low placed.beside)

theorem nested [Limits] {rule rule' : Parsing α} {construct : String}
    (alike : Alike window (window.Placed (depth + 1)) (near.entered construct)
      (far.entered construct) rule rule') :
    Alike window (window.Placed depth) near far (Parsing.nested construct rule)
      (Parsing.nested construct rule') := by
  intro low placed
  exact .nested placed (alike low (placed.entered construct))

theorem loop {step step' : α → Parsing (ForInStep α)}
    (alike : ∀ value near far,
      Alike window (window.Placed depth) near far (step value) (step' value)) (value : α) :
    Alike window (window.Placed depth) near far (Parsing.loop step value)
      (Parsing.loop step' value) := by
  apply Alike.repeatFrom
  · intro low near far placed
    exact placed.beside
  · exact alike

/-- A look at the next token, in a rule for statements. -/
theorem look {next next' : Token → Parsing β}
    (within : near.cursor < window.limit →
      Alike window (window.Placed depth) near far (next (window.near.get near.cursor))
        (next' (window.near.get near.cursor)))
    (atSeam : near.cursor = window.limit →
      Alike window (window.Placed depth) near far (next (window.near.get window.limit))
        (next' (window.far.get (window.limit + window.shift)))) :
    Alike window (window.Placed depth) near far (liftM Reading.current >>= next)
      (liftM Reading.current >>= next') := by
  intro low placed
  change Agree window (window.Placed depth) low
    (next (window.near.get near.cursor) window.near near)
    (next' (window.far.get far.cursor) window.far far)
  rcases Nat.lt_or_eq_of_le placed.beside.inside with inside | last
  · rw [placed.beside.get_eq inside]
    exact within inside low placed
  · rw [placed.beside.shifted, last]
    exact atSeam last low placed

theorem look_of_closes {next next' : Token → Parsing β} (closes : window.Closes)
    (alike : Alike window (window.Placed depth) near far (next (window.near.get near.cursor))
      (next' (window.near.get near.cursor))) :
    Alike window (window.Placed depth) near far (liftM Reading.current >>= next)
      (liftM Reading.current >>= next') := by
  refine look (fun _ => alike) fun last => ?_
  rw [window.get_limit_of_closes closes]
  rwa [last] at alike

theorem origin {opening : Token} {next next' : Origin → Parsing β}
    (alike : Alike window (window.Placed depth) near far
      (next ⟨opening.line, window.near.sourceName⟩)
      (next' ⟨opening.line, window.near.sourceName⟩)) :
    Alike window (window.Placed depth) near far
      ((liftM (Reading.originAt opening.line) : Parsing Origin) >>= next)
      ((liftM (Reading.originAt opening.line) : Parsing Origin) >>= next') := by
  intro low placed
  change Agree window (window.Placed depth) low (next _ window.near near) (next' _ window.far far)
  rw [window.sourceName]
  exact alike low placed

end Alike

/-- A rule over tokens, followed by a rule for statements. -/
theorem Steady.lift_bind {rule : Reading α} {next next' : α → Parsing β} (steady : Steady window rule)
    (rest : ∀ value near far, Alike window (window.Placed depth) near far (next value)
      (next' value)) :
    Alike window (window.Placed depth) near far ((liftM rule : Parsing α) >>= next)
      ((liftM rule : Parsing α) >>= next') :=
  (Alike.lift (steady _ _)).bind fun value near far _ => rest value near far

end Stencil
