import Stencil.Proofs.Parse.Stretch

/-!
# Rules that account for their tokens

A rule accounts for its tokens if the value that it succeeds with is a reading of exactly the
tokens between the place where it started and the place where it stopped: none is passed over and
none is read twice. What a sequence of rules has read is what its parts have read, put together,
and a repetition goes on with the reading it has so far.
-/

namespace Stencil

namespace TokenStream

/-- The significant tokens from one place up to another. -/
def between (stream : TokenStream) (start stop : Nat) : List Token :=
  (stream.significant.toList.drop start).take (stop - start)

variable {stream : TokenStream} {start middle stop : Nat}

@[simp]
theorem between_self (stream : TokenStream) (start : Nat) : stream.between start start = [] := by
  simp [between]

theorem between_append (first : start ≤ middle) (second : middle ≤ stop) :
    stream.between start middle ++ stream.between middle stop = stream.between start stop := by
  have sameStart : start + (middle - start) = middle := by omega
  have sameLength : stop - start = (middle - start) + (stop - middle) := by omega
  simp [between, sameLength, List.take_add, List.drop_drop, sameStart]

theorem lt_of_between_ne_nil (nonempty : stream.between start stop ≠ []) :
    start < stop ∧ start < stream.size := by
  have := List.length_pos_iff.2 nonempty
  simp only [between, List.length_take, List.length_drop, Array.length_toList] at this
  unfold size
  omega

theorem get_mem (stream : TokenStream) (index : Nat) :
    stream.get index ∈ stream.significant.toList := by
  simp [get]

theorem between_succ (inside : start < stream.size) :
    stream.between start (start + 1) = [stream.get start] := by
  simp [between, drop_eq_cons inside]

/-- A closed list of tokens ends with the end of the template. -/
theorem exists_closed_eq (tokens : List Token) :
    ∃ front last, Token.closed tokens = front ++ [last] ∧ last.kind = .eof := by
  unfold Token.closed
  split
  · exact ⟨[], _, rfl, rfl⟩
  · next last isLast =>
    split
    · next isEnd =>
      rcases List.getLast?_eq_some_iff.1 isLast with ⟨front, sameTokens⟩
      exact ⟨front, last, sameTokens, isEnd⟩
    · exact ⟨tokens, _, rfl, rfl⟩

theorem isClosed_ofTokens (tokens : List Token) : (ofTokens tokens).IsClosed := by
  rcases exists_closed_eq tokens with ⟨front, last, sameTokens, isEnd⟩
  have significant : (ofTokens tokens).significant.toList =
      front.filter (·.kind.isSignificant) ++ [last] := by
    simp [ofTokens, sameTokens, isEnd, Token.Kind.isSignificant]
  rw [IsClosed, get_last significant]
  exact isEnd

end TokenStream

variable {α β σ : Type} {stream : TokenStream} {start : Nat}

theorem exists_of_bind_eq_ok {rule : ReaderT TokenStream (EStateM SyntaxError σ) α}
    {next : α → ReaderT TokenStream (EStateM SyntaxError σ) β} {state after : σ} {result : β}
    (outcome : (rule >>= next) stream state = .ok result after) :
    ∃ value middle, rule stream state = .ok value middle ∧
      next value stream middle = .ok result after := by
  cases first : rule stream state with
  | ok value middle =>
      rw [bind_eq_of_ok first] at outcome
      exact ⟨value, middle, rfl, outcome⟩
  | error error middle =>
      rw [bind_eq_of_error first] at outcome
      cases outcome

/-- A rule used at a place succeeds only with a reading of the tokens that it has passed. -/
def AccountsFor (stream : TokenStream) (start : Nat) (rule : Reading α)
    (meaning : List Token → α → Prop) : Prop :=
  ∀ value stop, rule stream start = .ok value stop →
    start ≤ stop ∧ meaning (stream.between start stop) value

/-- What a step of a repetition has read, whether it asks for more or not. -/
def Found (meaning : List Token → α → Prop) (word : List Token) : ForInStep α → Prop
  | .done value | .yield value => meaning word value

namespace AccountsFor

variable {rule : Reading α} {meaning : List Token → α → Prop}

theorem mono {weaker : List Token → α → Prop} (accounts : AccountsFor stream start rule meaning)
    (weaken : ∀ word value, meaning word value → weaker word value) :
    AccountsFor stream start rule weaker := by
  intro value stop outcome
  have reading := accounts value stop outcome
  exact ⟨reading.1, weaken _ _ reading.2⟩

theorem of_eq {other : Reading α} {place : Nat} (same : rule stream start = other stream place)
    (inOrder : start ≤ place)
    (accounts : AccountsFor stream place other fun further =>
      meaning (stream.between start place ++ further)) :
    AccountsFor stream start rule meaning := by
  intro value stop outcome
  rw [same] at outcome
  rcases accounts value stop outcome with ⟨further, reading⟩
  rw [TokenStream.between_append inOrder further] at reading
  exact ⟨Nat.le_trans inOrder further, reading⟩

theorem pure {value : α} (reading : meaning [] value) :
    AccountsFor stream start (Pure.pure value) meaning := by
  intro result stop outcome
  cases outcome
  simpa using reading

theorem throw (error : SyntaxError) :
    AccountsFor stream start (throw error : Reading α) meaning := by
  intro value stop outcome
  cases outcome

theorem bind {next : α → Reading β} {goal : List Token → β → Prop}
    (first : AccountsFor stream start rule meaning)
    (rest : ∀ word value middle, meaning word value →
      AccountsFor stream middle (next value) fun further => goal (word ++ further)) :
    AccountsFor stream start (rule >>= next) goal := by
  intro result stop outcome
  rcases exists_of_bind_eq_ok outcome with ⟨value, middle, firstOutcome, restOutcome⟩
  rcases first value middle firstOutcome with ⟨inOrder, reading⟩
  rcases rest _ value middle reading result stop restOutcome with ⟨further, goal⟩
  rw [TokenStream.between_append inOrder further] at goal
  exact ⟨Nat.le_trans inOrder further, goal⟩

theorem map {change : α → β} {goal : List Token → β → Prop}
    (accounts : AccountsFor stream start rule meaning)
    (changed : ∀ word value, meaning word value → goal word (change value)) :
    AccountsFor stream start (change <$> rule) goal := by
  intro result stop outcome
  cases first : rule stream start with
  | ok value middle =>
      rw [map_eq_of_ok first] at outcome
      cases outcome
      have reading := accounts value _ first
      exact ⟨reading.1, changed _ _ reading.2⟩
  | error error middle =>
      rw [map_eq_of_error first] at outcome
      cases outcome

theorem current {next : Token → Reading α}
    (accounts : AccountsFor stream start (next (stream.get start)) meaning) :
    AccountsFor stream start (Reading.current >>= next) meaning :=
  accounts

theorem peek {count : Nat} {next : Token → Reading α}
    (accounts : AccountsFor stream start (next (stream.get (start + count))) meaning) :
    AccountsFor stream start (Reading.peek count >>= next) meaning :=
  accounts

theorem originAt {line : Nat} {next : Origin → Reading α}
    (accounts : AccountsFor stream start (next ⟨line, stream.sourceName⟩) meaning) :
    AccountsFor stream start (Reading.originAt line >>= next) meaning :=
  accounts

/-- A repetition goes on with what it has read so far. -/
theorem loop {step : α → Reading (ForInStep α)}
    (kept : ∀ word value middle, meaning word value →
      AccountsFor stream middle (step value) fun further => Found meaning (word ++ further))
    {word : List Token} {value : α} (reading : meaning word value) :
    AccountsFor stream start (Reading.loop step value) fun further =>
      meaning (word ++ further) := by
  unfold AccountsFor Reading.loop
  fun_induction repeatFrom id step value stream start generalizing word with
  | case1 => simp
  | case2 value start last after outcome =>
      rintro _ _ ⟨⟩
      exact kept word value start reading _ _ outcome
  | case3 value start more after outcome further ih =>
      intro result stop ends
      rcases kept word value start reading _ _ outcome with ⟨inOrder, soFar⟩
      rcases ih soFar result stop ends with ⟨later, goal⟩
      rw [List.append_assoc, TokenStream.between_append inOrder later] at goal
      exact ⟨Nat.le_trans inOrder later, goal⟩
  | case4 value start more after outcome stays =>
      rintro _ _ ⟨⟩
      exact kept word value start reading _ _ outcome

end AccountsFor

/-! ### Names and lists -/

/-- Names joined by points. -/
inductive DottedName : List Token → String → Prop where
  | single {token : Token} (isName : token.kind = .name) : DottedName [token] token.text
  | snoc {word : List Token} {name : String} {dot part : Token} (before : DottedName word name)
      (isDot : dot.kind = .dot) (isName : part.kind = .name) :
      DottedName (word ++ [dot, part]) (name ++ "." ++ part.text)

/-- Pieces with commas between them. -/
inductive CommaSeparated : List (List Token) → List Token → Prop where
  | nil : CommaSeparated [] []
  | single (piece : List Token) : CommaSeparated [piece] piece
  | snoc {pieces : List (List Token)} {word : List Token} {comma : Token}
      (before : CommaSeparated pieces word) (nonempty : pieces ≠ []) (isComma : comma.kind = .comma)
      (piece : List Token) : CommaSeparated (pieces ++ [piece]) (word ++ comma :: piece)

theorem CommaSeparated.eq_nil {word : List Token} (separated : CommaSeparated [] word) :
    word = [] := by
  generalize noPieces : ([] : List (List Token)) = pieces at separated
  cases separated with
  | nil => rfl
  | single => simp at noPieces
  | snoc => simp at noPieces

/-- Pieces with commas between them and, if there is a piece, perhaps one after the last. -/
inductive CommaList (pieces : List (List Token)) : List Token → Prop where
  | plain {word : List Token} (separated : CommaSeparated pieces word) : CommaList pieces word
  | trailing {word : List Token} {comma : Token} (separated : CommaSeparated pieces word)
      (nonempty : pieces ≠ []) (isComma : comma.kind = .comma) : CommaList pieces (word ++ [comma])

namespace AccountsFor

variable {meaning : List Token → β → Prop} (closed : stream.IsClosed)

include closed

omit closed in
theorem of_error {rule : Reading β} {error : SyntaxError} {stop : Nat}
    (fails : rule stream start = .error error stop) : AccountsFor stream start rule meaning := by
  intro value stop outcome
  rw [fails] at outcome
  cases outcome

theorem of_next {rule next : Reading β} (notEnd : (stream.get start).kind ≠ .eof)
    (same : rule stream start = next stream (stream.next start))
    (accounts : AccountsFor stream (start + 1) next fun further =>
      meaning (stream.get start :: further)) : AccountsFor stream start rule meaning := by
  rw [closed.next_eq notEnd] at same
  apply of_eq same (Nat.le_succ start)
  have inside : start < stream.size := by
    have := closed.lt_size notEnd
    omega
  rw [TokenStream.between_succ inside]
  exact accounts

theorem advance {next : Token → Reading β} (notEnd : (stream.get start).kind ≠ .eof)
    (accounts : AccountsFor stream (start + 1) (next (stream.get start)) fun further =>
      meaning (stream.get start :: further)) :
    AccountsFor stream start (Reading.advance >>= next) meaning :=
  of_next closed notEnd rfl accounts

theorem expect {kind : Token.Kind} {expected : String} {next : Token → Reading β}
    (notEnd : kind ≠ .eof)
    (accounts : ∀ token, token.kind = kind →
      AccountsFor stream (start + 1) (next token) fun further => meaning (token :: further)) :
    AccountsFor stream start (Reading.expect kind expected >>= next) meaning := by
  by_cases isKind : (stream.get start).kind = kind
  · apply of_next closed (isKind ▸ notEnd) (bind_eq_of_ok (Reading.expect_eq_of_kind isKind _))
    exact accounts _ isKind
  · exact of_error (bind_eq_of_error (Reading.expect_eq_of_ne isKind _))

theorem skipIf {kind : Token.Kind} {next : Bool → Reading β} (notEnd : kind ≠ .eof)
    (skipped : ∀ token, token.kind = kind →
      AccountsFor stream (start + 1) (next true) fun further => meaning (token :: further))
    (stays : AccountsFor stream start (next false) meaning) :
    AccountsFor stream start (Reading.skipIf kind >>= next) meaning := by
  by_cases isKind : (stream.get start).kind = kind
  · apply of_next closed (isKind ▸ notEnd) (bind_eq_of_ok (Reading.skipIf_eq_of_kind isKind))
    exact skipped _ isKind
  · apply of_eq (bind_eq_of_ok (Reading.skipIf_eq_of_ne isKind)) (Nat.le_refl start)
    simpa using stays

theorem identifier {next : String → Reading β}
    (accounts : ∀ token, token.kind = .name → token = stream.get start →
      AccountsFor stream (start + 1) (next token.text) fun further => meaning (token :: further)) :
    AccountsFor stream start (Reading.identifier >>= next) meaning := by
  by_cases isName : (stream.get start).kind = .name
  · apply of_next closed (by simp [isName]) (bind_eq_of_ok (Reading.identifier_eq_of_name isName))
    exact accounts _ isName rfl
  · apply of_error (bind_eq_of_error _)
    · exact .ofToken (stream.get start) "name"
    · exact start
    · rw [Reading.identifier, Reading.current_bind, if_neg isName]
      rfl

theorem dottedStep {word : List Token} {name : String} (before : DottedName word name) :
    AccountsFor stream start (Reading.dottedStep name) fun further =>
      Found DottedName (word ++ further) := by
  apply current
  apply peek
  split
  · next isPart =>
    apply advance closed (by simp [isPart.1])
    apply advance closed (by simp [isPart.2])
    apply pure
    exact .snoc before isPart.1 isPart.2
  · apply pure
    simpa [Found] using before

theorem dottedName : AccountsFor stream start Reading.dottedName DottedName := by
  apply identifier closed
  intro token isName _
  exact loop (fun _ _ _ => dottedStep closed) (DottedName.single isName)

/-- A rule that reads a token accounts for the token where it starts. -/
theorem begins {rule : Reading β} (reads : Reads stream 1 start rule)
    (accounts : AccountsFor stream start rule meaning) :
    AccountsFor stream start rule fun word value =>
      (∃ rest, word = stream.get start :: rest) ∧ meaning word value := by
  intro value stop outcome
  rcases accounts value stop outcome with ⟨inOrder, reading⟩
  rw [Reads, outcome] at reads
  have further : start + 1 ≤ stop := reads.2
  have inside := reads.1.lt_size closed further
  refine ⟨inOrder, ⟨stream.between (start + 1) stop, ?_⟩, reading⟩
  rw [← TokenStream.between_append (Nat.le_succ start) further, TokenStream.between_succ inside]
  rfl

section CommaList

variable {close : Token.Kind} {expected : String} {isEmpty : α → Bool} {item : α → Reading α}
  {good : List (List Token) → α → Prop}

theorem commaStep {pieces : List (List Token)} {body : List Token} {items : α}
    (reads : ∀ items start, Reads stream 1 start (item items))
    (sameEmpty : isEmpty items = true ↔ pieces = [])
    (each : ∀ start, AccountsFor stream start (item items) fun word => good (pieces ++ [word]))
    (reading : good pieces items) (separated : CommaSeparated pieces body) :
    AccountsFor stream start (Reading.commaStep close expected isEmpty item items)
      fun further result => match result with
        | .done items => good pieces items ∧ CommaList pieces (body ++ further)
        | .yield items => further ≠ [] ∧ ∃ pieces, good pieces items ∧
            CommaSeparated pieces (body ++ further) := by
  apply current
  split
  · apply pure
    rw [List.append_nil]
    exact ⟨reading, .plain separated⟩
  · split
    · next noItems =>
      have noPieces := sameEmpty.1 noItems
      subst noPieces
      have noBody := separated.eq_nil
      subst noBody
      apply bind (begins closed (reads items start) (each start))
      rintro word items middle ⟨⟨rest, begins⟩, found⟩
      apply pure
      rw [List.append_nil]
      exact ⟨by simp [begins], _, found, .single word⟩
    · next hasItems =>
      have nonempty : pieces ≠ [] := fun noPieces => hasItems (sameEmpty.2 noPieces)
      apply expect closed (by simp)
      intro comma isComma
      apply current
      split
      · apply pure
        exact ⟨reading, .trailing separated nonempty isComma⟩
      · apply bind (each _)
        intro word items middle found
        apply pure
        rw [List.append_nil]
        exact ⟨by simp, _, found, .snoc separated nonempty isComma word⟩

omit closed in
theorem commaStep_done {items result : α} {stop : Nat}
    (outcome : Reading.commaStep close expected isEmpty item items stream start =
      .ok (.done result) stop) : (stream.get stop).kind = close := by
  rw [Reading.commaStep, Reading.current_bind] at outcome
  split at outcome
  · next isClose =>
    cases outcome
    exact isClose
  · split at outcome
    · rcases exists_of_bind_eq_ok outcome with ⟨_, _, _, yields⟩
      cases yields
    · rcases exists_of_bind_eq_ok outcome with ⟨_, middle, _, rest⟩
      rw [Reading.current_bind] at rest
      split at rest
      · next isClose =>
        cases rest
        exact isClose
      · rcases exists_of_bind_eq_ok rest with ⟨_, _, _, yields⟩
        cases yields

variable (reads : ∀ items start, Reads stream 1 start (item items))
  (sameEmpty : ∀ pieces items, good pieces items → (isEmpty items = true ↔ pieces = []))
  (each : ∀ pieces items start, good pieces items →
    AccountsFor stream start (item items) fun word => good (pieces ++ [word]))

include reads sameEmpty each

theorem commaLoop {pieces : List (List Token)} {body : List Token} {items result : α} {stop : Nat}
    (reading : good pieces items) (separated : CommaSeparated pieces body)
    (outcome : Reading.loop (Reading.commaStep close expected isEmpty item) items stream start =
      .ok result stop) :
    start ≤ stop ∧ (stream.get stop).kind = close ∧ ∃ pieces, good pieces result ∧
      CommaList pieces (body ++ stream.between start stop) := by
  unfold Reading.loop at outcome
  fun_induction repeatFrom id (Reading.commaStep close expected isEmpty item) items stream start
    generalizing pieces body with
  | case1 => cases outcome
  | case2 items start last after stepped =>
      cases outcome
      have accounts := commaStep closed reads (sameEmpty _ _ reading) (each _ _ · reading) reading
        separated _ _ stepped
      exact ⟨accounts.1, commaStep_done stepped, pieces, accounts.2⟩
  | case3 items start more after stepped further ih =>
      have accounts := commaStep closed reads (sameEmpty _ _ reading) (each _ _ · reading) reading
        separated _ _ stepped
      rcases accounts with ⟨inOrder, _, pieces, reading, separated⟩
      rcases ih reading separated outcome with ⟨later, isClose, found⟩
      rw [List.append_assoc, TokenStream.between_append inOrder later] at found
      exact ⟨Nat.le_trans inOrder later, isClose, found⟩
  | case4 items start more after stepped stays =>
      -- A step that asks for more has read a token, so that the repetition does not end here.
      have accounts := commaStep closed reads (sameEmpty _ _ reading) (each _ _ · reading) reading
        separated _ _ stepped
      exact absurd (TokenStream.lt_of_between_ne_nil accounts.2.1) stays

variable (good)

theorem commaList {none : α} (notEnd : close ≠ .eof) (nothing : good [] none) :
    AccountsFor stream start (Reading.commaList close expected isEmpty item none)
      fun word items => ∃ pieces body closing, good pieces items ∧ CommaList pieces body ∧
        closing.kind = close ∧ word = body ++ [closing] := by
  intro result stop outcome
  rcases exists_of_bind_eq_ok outcome with ⟨items, middle, looped, rest⟩
  rcases commaLoop closed reads sameEmpty each nothing .nil looped with
    ⟨inOrder, isClose, pieces, reading, separated⟩
  have last : AccountsFor stream middle (Reading.advance >>= fun _ => Pure.pure items)
      fun word value => value = items ∧ word = [stream.get middle] := by
    apply advance closed (isClose ▸ notEnd)
    exact pure ⟨rfl, rfl⟩
  rcases last _ _ rest with ⟨later, rfl, lastWord⟩
  refine ⟨Nat.le_trans inOrder later, pieces, _, stream.get middle, reading, separated, isClose, ?_⟩
  rw [List.nil_append, ← lastWord, TokenStream.between_append inOrder later]

end CommaList

end AccountsFor

theorem skipIf_accounts {kind : Token.Kind} (closed : stream.IsClosed) (notEnd : kind ≠ .eof) :
    AccountsFor stream start (Reading.skipIf kind) fun word isThere =>
      (isThere = true ∧ ∃ token, token.kind = kind ∧ word = [token]) ∨
        (isThere = false ∧ word = []) := by
  rw [← bind_pure (Reading.skipIf kind)]
  apply AccountsFor.skipIf closed notEnd
  · intro token isKind
    exact .pure (Or.inl ⟨rfl, token, isKind, rfl⟩)
  · exact .pure (Or.inr ⟨rfl, rfl⟩)

end Stencil
