import Stencil.Proofs.Stmt.Interface

/-!
# Tags that are declined

A tag whose word the grammar does not know is handed to the extension that claims the word. Whatever
the extension has read before it declines the tag is forgotten: the parse goes on behind the tag,
with the constructs that were open before it. So an extension that looks around before it declines
is not told from one that declines at once.
-/

namespace Stencil

/-! ### Tags that are handed to an extension -/

variable [Limits]

namespace Stmt

open Reading Parsing

/-- An extension claims the word of the block tag at an index, and the grammar does not know it. -/
structure Claims (registry : Registry) (stream : TokenStream) (cursor : Nat) (word : String)
    (owner : Extension) : Prop where
  isBlock : (stream.get cursor).kind = .blockBegin
  isWord : (stream.get (stream.next cursor)).word? = some word
  isUnknown : (tagRules (fun _ place => .ok none place)).lookup word = none
  notClosing : closingTags.contains word = false
  isFound : registry.find? word = some owner

/-- Hands a tag to an extension. -/
def handOver (owner : Extension) (word : String) (opening : Token)
    (statement : Parsing (Option Stmt)) : Parsing (Option Stmt) := do
  let tag ← current
  let start ← position
  match ← nested "extension" (owner.parseTag statement opening) with
  | some stmt =>
    if (← position) = start then
      throw (.extensionFailed owner.name (.notConsumed word) tag.span)
    else return some stmt
  | none =>
    moveTo start
    skipTag
    return none

variable {registry : Registry} {stream : TokenStream} {place : Place} {word : String}
  {owner : Extension}

theorem extensionRule_eq (isFound : registry.find? word = some owner) (opening : Token)
    (statement : Parsing (Option Stmt)) :
    extensionRule statement registry word opening = handOver owner word opening statement := by
  funext stream place
  unfold extensionRule
  simp only [isFound]
  rfl

/-- A claimed word does not close a block. -/
theorem Claims.isClosing_eq {cursor : Nat} (claims : Claims registry stream cursor word owner) :
    registry.isClosing word = false := by
  simp [Registry.isClosing, Registry.handles, claims.isFound, -List.contains_eq_mem,
    claims.notClosing]

/-- A claimed tag is handed to the extension that claims it. -/
theorem Claims.statementRule_eq (claims : Claims registry stream place.cursor word owner)
    (statement : Parsing (Option Stmt)) :
    statementRule statement registry stream place =
      handOver owner word (stream.get place.cursor) statement stream
        { place with cursor := stream.next place.cursor } := by
  have isUnknown : (tagRules statement).lookup word = none :=
    (lookup_tagRules_eq_none_iff _ _ word).1 claims.isUnknown
  rw [← extensionRule_eq claims.isFound]
  unfold statementRule
  rw [bind_eq_of_ok (lift_current_eq stream place)]
  simp only [claims.isBlock]
  unfold blockTagRule
  rw [bind_eq_of_ok (lift_advance_eq stream place), bind_eq_of_ok (lift_current_eq stream _)]
  simp only [claims.isWord, isUnknown, claims.isClosing_eq]
  rfl

/-- A tag that is not claimed is read as without extensions. -/
theorem statementRule_eq_of_not_claimed
    (notClaimed : ∀ word owner, ¬Claims registry stream place.cursor word owner)
    (statement : Parsing (Option Stmt)) :
    statementRule statement registry stream place = statementRule statement {} stream place := by
  unfold statementRule
  rw [bind_eq_of_ok (lift_current_eq stream place), bind_eq_of_ok (lift_current_eq stream place)]
  generalize isKind : (stream.get place.cursor).kind = kind
  cases kind with
  | blockBegin =>
      simp only
      unfold blockTagRule
      rw [bind_eq_of_ok (lift_advance_eq stream place),
        bind_eq_of_ok (lift_advance_eq stream place),
        bind_eq_of_ok (lift_current_eq stream _), bind_eq_of_ok (lift_current_eq stream _)]
      cases isWord : (stream.get (stream.next place.cursor)).word? with
      | none => rfl
      | some word =>
          cases isRule : (tagRules statement).lookup word with
          | some rule => simp only [isRule]
          | none =>
              simp only [isRule]
              cases isClosing : closingTags.contains word with
              | true => simp [Registry.isClosing, -List.contains_eq_mem, isClosing]
              | false =>
                  have notFound : registry.find? word = none := by
                    cases isFound : registry.find? word with
                    | none => rfl
                    | some owner =>
                        refine absurd ⟨isKind, isWord, ?_, isClosing, isFound⟩
                          (notClaimed word owner)
                        exact (lookup_tagRules_eq_none_iff _ _ word).1 isRule
                  have sameClosing : registry.isClosing word = Registry.isClosing {} word := by
                    unfold Registry.isClosing Registry.handles
                    rw [notFound]
                    rfl
                  rw [sameClosing]
                  split
                  · rfl
                  · unfold extensionRule
                    rw [notFound]
                    rfl
  | _ => rfl

end Stmt

/-! ### Extensions that leave what they enter -/

/-- An extension leaves what it enters if the rule for statements does. -/
def Extension.Balanced (stream : TokenStream) (extension : Extension) : Prop :=
  ∀ (statement : Parsing (Option Stmt)) (opening : Token),
    Parsing.KeepsNesting stream statement →
      Parsing.KeepsNesting stream (extension.parseTag statement opening)

namespace Stmt

open Reading Parsing

variable {registry : Registry} {stream : TokenStream} {place : Place} {word : String}
  {owner : Extension} {opening : Token} {statement : Parsing (Option Stmt)}

theorem handOver_keepsNesting (balanced : KeepsNesting stream (owner.parseTag statement opening)) :
    KeepsNesting stream (handOver owner word opening statement) := by
  refine .bind (.leveled fun _ => current) fun tag => .bind (.leveled _) fun start => ?_
  refine .bind (.nested _ balanced) fun stmt => ?_
  cases stmt with
  | some stmt =>
      refine .bind (.leveled _) fun stop => ?_
      split
      · exact fun place _ => .refl place
      · exact fun place _ => .refl place
  | none =>
      refine .bind ?_ fun _ => .bind (.leveled fun _ => skipTag) fun _ => fun place _ => .refl place
      exact fun place _ => ⟨rfl, rfl⟩

/-- With such extensions the rule for statements leaves what it enters. -/
theorem parse_keepsNesting_of_balanced (closed : stream.IsClosed)
    (balanced : ∀ extension ∈ registry.extensions, extension.Balanced stream) :
    KeepsNesting stream (parse registry) := by
  intro place
  generalize left : stream.size - place.cursor = count
  induction count using Nat.strongRecOn generalizing place with
  | ind count ih =>
      have inner : KeepsNesting stream (beyond registry stream place) := by
        intro inner accounted
        unfold beyond
        split
        · next further => exact ih (stream.size - inner.cursor) (by omega) inner rfl accounted
        · exact .refl inner
      intro accounted
      rw [parse_eq]
      by_cases claimed : ∃ word owner, Claims registry stream place.cursor word owner
      · rcases claimed with ⟨word, owner, claims⟩
        have member := List.mem_of_find?_eq_some claims.isFound
        have keeps : KeepsNesting stream (handOver owner word (stream.get place.cursor)
            (beyond registry stream place)) :=
          handOver_keepsNesting (balanced owner member (beyond registry stream place)
            (stream.get place.cursor) inner)
        have same := keeps { place with cursor := stream.next place.cursor }
          ⟨accounted.bounded, accounted.counted⟩
        rw [claims.statementRule_eq]
        exact ⟨same.depth_eq, same.trail_eq⟩
      · rw [statementRule_eq_of_not_claimed fun word owner claims => claimed ⟨word, owner, claims⟩]
        exact (statementRule_composed closed).keepsNesting inner place accounted

theorem beyond_keepsNesting_of_balanced (closed : stream.IsClosed)
    (balanced : ∀ extension ∈ registry.extensions, extension.Balanced stream) (outer : Place) :
    KeepsNesting stream (beyond registry stream outer) := by
  intro inner accounted
  unfold beyond
  split
  · exact parse_keepsNesting_of_balanced closed balanced inner accounted
  · exact .refl inner

end Stmt

/-! ### What an extension does before it declines -/

/-- What an extension may do on the way from a place to another one, so that whatever is entered is
left: it moves among the tokens, it uses the rule for statements, whether or not that fails, and it
enters constructs that it leaves again. -/
inductive Wanders (statement : Parsing (Option Stmt)) (stream : TokenStream) :
    Place → Place → Prop where
  | stay (place : Place) : Wanders statement stream place place
  | move {place after : Place} (before : Wanders statement stream place after) (cursor : Nat) :
      Wanders statement stream place { after with cursor }
  | statement {place after : Place} (before : Wanders statement stream place after)
      (balanced : after.SameNesting (stateAfter (statement stream after))) :
      Wanders statement stream place (stateAfter (statement stream after))
  | nested {place middle after : Place} (before : Wanders statement stream place middle)
      {construct : String} (room : middle.depth < maxDepth)
      (inside : Wanders statement stream (middle.entered construct) after) :
      Wanders statement stream place after.left

namespace Wanders

variable {statement : Parsing (Option Stmt)} {stream : TokenStream} {place middle after : Place}

theorem trans (first : Wanders statement stream place middle)
    (second : Wanders statement stream middle after) : Wanders statement stream place after := by
  induction second with
  | stay => exact first
  | move _ cursor ih => exact (ih first).move cursor
  | statement _ balanced ih => exact (ih first).statement balanced
  | nested _ room inside ih => exact (ih first).nested room inside

/-- All constructs that were entered have been left. -/
theorem sameNesting (wanders : Wanders statement stream place after) (accounted : place.Accounted) :
    place.SameNesting after := by
  induction wanders with
  | stay place => exact .refl place
  | move _ cursor ih => exact ⟨(ih accounted).depth_eq, (ih accounted).trail_eq⟩
  | statement _ balanced ih => exact (ih accounted).trans balanced
  | nested _ room _ ihBefore ihInside =>
      have same := ihBefore accounted
      have accountedThere := same.accounted accounted
      exact same.trans (accountedThere.left_of_entered
        (ihInside (accountedThere.entered room _)))

/-- To use a rule of the grammar is to wander, if the rule for statements leaves what it enters. -/
theorem of_composed {α : Type} {rule : Parsing (Option Stmt) → Parsing α}
    (composed : Stmt.Composed stream rule) (keeps : Parsing.KeepsNesting stream statement)
    (place : Place) (accounted : place.Accounted) :
    Meets (fun _ after => Wanders statement stream place after)
      (fun _ after => Wanders statement stream place after) (rule statement stream place) := by
  induction composed generalizing place with
  | pure | throw => exact .stay place
  | leveled rules =>
      rw [Meets.stateAfter_iff, Parsing.stateAfter_leveled]
      exact (Wanders.stay place).move _
  | statement =>
      rw [Meets.stateAfter_iff]
      exact (Wanders.stay place).statement (keeps place accounted)
  | bind _ _ ihFirst ihRest =>
      refine .bind (ihFirst place accounted) fun value middle soFar => ?_
      have accountedThere := (soFar.sameNesting accounted).accounted accounted
      exact (ihRest value middle accountedThere).mono (fun _ _ => soFar.trans)
        fun _ _ => soFar.trans
  | loop _ value ih =>
      refine .repeatFrom (fun _ after => Wanders statement stream place after)
        (fun value middle soFar => ?_) (.stay place)
      have accountedThere := (soFar.sameNesting accounted).accounted accounted
      refine (ih value middle accountedThere).mono (fun result after further => ?_)
        fun _ _ => soFar.trans
      cases result with
      | done => exact soFar.trans further
      | yield => exact ⟨soFar.trans further, Or.inr (soFar.trans further)⟩
  | @nested _ construct rule _ ih =>
      by_cases full : maxDepth ≤ place.depth
      · exact .of_error (Parsing.nested_eq_of_full full construct _) (.stay place)
      · have room : place.depth < maxDepth := by omega
        have inside := ih (place.entered construct) (accounted.entered room construct)
        cases outcome : rule statement stream (place.entered construct) with
        | ok value after =>
            rw [outcome] at inside
            exact .of_ok (Parsing.nested_eq_of_ok room outcome) (.nested (.stay place) room inside)
        | error error after =>
            rw [outcome] at inside
            exact .of_error (Parsing.nested_eq_of_error room outcome)
              (.nested (.stay place) room inside)

end Wanders

/-- Two extensions do the same, except that the one may wander before it declines a tag that the
other one declines at once. Both are given the rule for statements of a registry. -/
structure Extension.DeclinesLike (registry : Registry) (stream : TokenStream)
    (late prompt : Extension) : Prop where
  name_eq : prompt.name = late.name
  tags_eq : prompt.tags = late.tags
  outcome_eq : ∀ (outer : Place) (opening : Token) (place : Place), place.Accounted →
    prompt.parseTag (Stmt.beyond registry stream outer) opening stream place =
        late.parseTag (Stmt.beyond registry stream outer) opening stream place ∨
      ∃ after, Wanders (Stmt.beyond registry stream outer) stream place after ∧
        late.parseTag (Stmt.beyond registry stream outer) opening stream place = .ok none after ∧
        prompt.parseTag (Stmt.beyond registry stream outer) opening stream place = .ok none place

/-- Registries with extensions that are alike in this way, one by one. -/
def Registry.DeclinesLike (stream : TokenStream) (late prompt : Registry) : Prop :=
  List.Forall₂ (Extension.DeclinesLike late stream) late.extensions prompt.extensions

/-- Every extension works through the parser. -/
def Registry.Interfaced (stream : TokenStream) (registry : Registry) : Prop :=
  ∀ extension ∈ registry.extensions, ∀ opening : Token,
    Stmt.Interfaced stream fun statement => extension.parseTag statement opening

namespace Registry.DeclinesLike

variable {registry registry' : Registry} {stream : TokenStream}
  (like : Registry.DeclinesLike stream registry registry')

include like

/-- The same words are claimed, by extensions that are alike. -/
theorem find? (word : String) : Option.Rel (Extension.DeclinesLike registry stream)
    (registry.find? word) (registry'.find? word) := by
  unfold Registry.DeclinesLike at like
  unfold Registry.find?
  generalize registry.extensions = late at like
  generalize registry'.extensions = prompt at like
  induction like with
  | nil => exact .none
  | @cons first second _ _ same _ ih =>
      rw [List.find?_cons, List.find?_cons, same.tags_eq]
      cases first.tags.contains word with
      | true => exact .some same
      | false => exact ih

theorem isClosing (word : String) : registry'.isClosing word = registry.isClosing word := by
  have sameHandles : registry'.handles word = registry.handles word := by
    have found := like.find? word
    unfold Registry.handles
    generalize registry.find? word = owner at found
    generalize registry'.find? word = owner' at found
    cases found with
    | some => rfl
    | none => rfl
  rw [Registry.isClosing, sameHandles]
  rfl

end Registry.DeclinesLike

namespace Stmt

open Reading Parsing

variable {registry registry' : Registry} {stream : TokenStream} {place after : Place}
  {word : String} {owner owner' : Extension} {opening : Token} {statement : Parsing (Option Stmt)}

/-! ### The outcome at one tag -/

/-- The tag at a place is handed to an extension, which wanders and then declines it. -/
structure DeclinesAt (registry : Registry) (stream : TokenStream) (place : Place) : Prop where
  room : place.depth < maxDepth
  wanders : ∃ word owner after, Claims registry stream place.cursor word owner ∧
    Wanders (beyond registry stream place) stream
      (({ place with cursor := stream.next place.cursor } : Place).entered "extension") after ∧
    owner.parseTag (beyond registry stream place) (stream.get place.cursor) stream
      (({ place with cursor := stream.next place.cursor } : Place).entered "extension") =
        .ok none after

/-- A tag that is declined is passed over, and nothing else comes of it. -/
theorem handOver_eq_of_declined (accounted : place.Accounted) (room : place.depth < maxDepth)
    (declined : owner.parseTag statement opening stream (place.entered "extension") =
      .ok none after)
    (same : (place.entered "extension").SameNesting after) :
    handOver owner word opening statement stream place =
      .ok none { place with cursor := stateAfter (skipTag stream (stream.clamp place.cursor)) } := by
  have back := accounted.left_of_entered same
  have restored : { after.left with cursor := stream.clamp place.cursor } =
      { place with cursor := stream.clamp place.cursor } := by
    rw [Place.mk.injEq]
    exact ⟨rfl, back.depth_eq, back.trail_eq⟩
  unfold handOver
  rw [bind_eq_of_ok (lift_current_eq stream place)]
  rw [bind_eq_of_ok (show position stream place = .ok place.cursor place from rfl)]
  rw [bind_eq_of_ok (nested_eq_of_ok room declined)]
  simp only
  rw [bind_eq_of_ok (show moveTo place.cursor stream after.left =
    .ok () { after.left with cursor := stream.clamp place.cursor } from rfl), restored]
  rfl

/-- Which extension a tag is handed to matters only for what comes of its rule. -/
theorem handOver_eq_of_nested_eq (sameName : owner'.name = owner.name)
    (same : nested "extension" (owner'.parseTag statement opening) stream place =
      nested "extension" (owner.parseTag statement opening) stream place) :
    handOver owner' word opening statement stream place =
      handOver owner word opening statement stream place := by
  unfold handOver
  rw [bind_eq_of_ok (lift_current_eq stream place), bind_eq_of_ok (lift_current_eq stream place)]
  have here : position stream place = .ok place.cursor place := rfl
  rw [bind_eq_of_ok here, bind_eq_of_ok here]
  cases outcome : nested "extension" (owner.parseTag statement opening) stream place with
  | ok stmt after =>
      rw [bind_eq_of_ok outcome, bind_eq_of_ok (same.trans outcome), sameName]
  | error error after =>
      rw [bind_eq_of_error outcome, bind_eq_of_error (same.trans outcome)]

/-- Where one extension declines late what the other one declines at once, the outcome is the
same. -/
theorem handOver_eq_of_declinesLike {outer : Place}
    (like : Extension.DeclinesLike registry stream owner owner') (accounted : place.Accounted) :
    handOver owner' word opening (beyond registry stream outer) stream place =
      handOver owner word opening (beyond registry stream outer) stream place := by
  by_cases full : maxDepth ≤ place.depth
  · refine handOver_eq_of_nested_eq like.name_eq ?_
    rw [nested_eq_of_full full, nested_eq_of_full full]
  · have room : place.depth < maxDepth := by omega
    have entered := accounted.entered room "extension"
    rcases like.outcome_eq outer opening _ entered with same | ⟨after, wanders, late, prompt⟩
    · refine handOver_eq_of_nested_eq like.name_eq ?_
      cases outcome : owner.parseTag (beyond registry stream outer) opening stream
          (place.entered "extension") with
      | ok stmt after =>
          rw [nested_eq_of_ok room outcome, nested_eq_of_ok room (same.trans outcome)]
      | error error after =>
          rw [nested_eq_of_error room outcome, nested_eq_of_error room (same.trans outcome)]
    · rw [handOver_eq_of_declined accounted room late (wanders.sameNesting entered),
        handOver_eq_of_declined accounted room prompt (.refl _)]

/-! ### The rule for statements -/

theorem handOver_interfaced
    (interfaced : Interfaced stream fun statement => owner.parseTag statement opening) :
    Interfaced stream (handOver owner word opening) := by
  refine .bind (.lift current) fun tag => .bind (.leveled _) fun start => ?_
  refine .bind (.nested _ interfaced) fun stmt => ?_
  cases stmt with
  | some stmt =>
      refine .bind (.leveled _) fun stop => ?_
      split
      · exact .throw _
      · exact .pure _
  | none =>
      refine .bind ?_ fun _ => .bind (.lift skipTag) fun _ => .pure _
      exact .leveled fun _ stream _ => .ok () (stream.clamp start)

variable (closed : stream.IsClosed) (interfaced : registry.Interfaced stream)

include closed interfaced

theorem statementRule_keepsAccount (keeps : KeepsAccount stream statement) :
    KeepsAccount stream (statementRule statement registry) := by
  intro place accounted
  by_cases claimed : ∃ word owner, Claims registry stream place.cursor word owner
  · rcases claimed with ⟨word, owner, claims⟩
    rw [claims.statementRule_eq]
    have member := List.mem_of_find?_eq_some claims.isFound
    exact (handOver_interfaced (interfaced owner member _)).keepsAccount keeps _
      ⟨accounted.bounded, accounted.counted⟩
  · rw [statementRule_eq_of_not_claimed fun word owner claims => claimed ⟨word, owner, claims⟩]
    exact (Interfaced.of_composed (statementRule_composed closed)).keepsAccount keeps place
      accounted

/-- Whatever extensions do through the parser, the open constructs stay accounted for. -/
theorem parse_keepsAccount : KeepsAccount stream (parse registry) := by
  intro place
  generalize left : stream.size - place.cursor = count
  induction count using Nat.strongRecOn generalizing place with
  | ind count ih =>
      have inner : KeepsAccount stream (beyond registry stream place) := by
        intro inner accounted
        unfold beyond
        split
        · next further => exact ih (stream.size - inner.cursor) (by omega) inner rfl accounted
        · exact accounted
      intro accounted
      rw [parse_eq]
      exact statementRule_keepsAccount closed interfaced inner place accounted

theorem beyond_keepsAccount (outer : Place) :
    KeepsAccount stream (beyond registry stream outer) := by
  intro inner accounted
  unfold beyond
  split
  · exact parse_keepsAccount closed interfaced inner accounted
  · exact accounted

omit closed interfaced in
/-- A tag is claimed in both registries or in none of them. -/
theorem Claims.alike (like : Registry.DeclinesLike stream registry registry') (cursor : Nat) :
    (∃ word owner owner', Claims registry stream cursor word owner ∧
      Claims registry' stream cursor word owner' ∧
      Extension.DeclinesLike registry stream owner owner') ∨
    ((∀ word owner, ¬Claims registry stream cursor word owner) ∧
      ∀ word owner, ¬Claims registry' stream cursor word owner) := by
  by_cases claimed : ∃ word owner, Claims registry stream cursor word owner
  · rcases claimed with ⟨word, owner, claims⟩
    have found := like.find? word
    rw [claims.isFound] at found
    generalize isFound : registry'.find? word = found' at found
    cases found with
    | some sameOwner =>
        exact Or.inl ⟨word, owner, _, claims, ⟨claims.isBlock, claims.isWord, claims.isUnknown,
          claims.notClosing, isFound⟩, sameOwner⟩
  · refine Or.inr ⟨fun word owner claims => claimed ⟨word, owner, claims⟩,
      fun word owner' claims => ?_⟩
    have found := like.find? word
    rw [claims.isFound] at found
    generalize isFound : registry.find? word = found' at found
    cases found with
    | some sameOwner =>
        exact claimed ⟨word, _, claims.isBlock, claims.isWord, claims.isUnknown,
          claims.notClosing, isFound⟩

/-- Extensions that are alike up to the moment at which they decline lead to the same statements,
at every depth. -/
theorem parse_eq_of_declinesLike (interfaced' : registry'.Interfaced stream)
    (like : Registry.DeclinesLike stream registry registry') (place : Place)
    (accounted : place.Accounted) : parse registry' stream place = parse registry stream place := by
  generalize left : stream.size - place.cursor = count
  induction count using Nat.strongRecOn generalizing place with
  | ind count ih =>
      have keeps := beyond_keepsAccount closed interfaced place
      have same (inner : Place) (accounted : inner.Accounted) :
          beyond registry' stream place stream inner =
            beyond registry stream place stream inner := by
        unfold beyond
        split
        · next further => exact ih (stream.size - inner.cursor) (by omega) inner accounted rfl
        · rfl
      rw [parse_eq, parse_eq]
      rcases Claims.alike like place.cursor with
        ⟨word, owner, owner', claims, claims', sameOwner⟩ | ⟨notClaimed, notClaimed'⟩
      · have member' := List.mem_of_find?_eq_some claims'.isFound
        have accountedThere :
            ({ place with cursor := stream.next place.cursor } : Place).Accounted :=
          ⟨accounted.bounded, accounted.counted⟩
        rw [claims.statementRule_eq, claims'.statementRule_eq]
        rw [(handOver_interfaced (interfaced' owner' member' _)).agrees keeps same _ accountedThere]
        exact handOver_eq_of_declinesLike sameOwner accountedThere
      · rw [statementRule_eq_of_not_claimed notClaimed, statementRule_eq_of_not_claimed notClaimed']
        exact (Interfaced.of_composed (statementRule_composed closed)).agrees keeps same place
          accounted

omit closed interfaced in
/-- A tag that is declined gives no statement and no error, at any depth. -/
theorem DeclinesAt.parse_eq (declines : DeclinesAt registry stream place)
    (accounted : place.Accounted) : parse registry stream place = .ok none { place with
      cursor := stateAfter (skipTag stream (stream.clamp (stream.next place.cursor))) } := by
  rcases declines.wanders with ⟨word, owner, after, claims, wanders, declined⟩
  have accountedThere : ({ place with cursor := stream.next place.cursor } : Place).Accounted :=
    ⟨accounted.bounded, accounted.counted⟩
  have same := wanders.sameNesting (accountedThere.entered declines.room "extension")
  rw [Stmt.parse_eq, claims.statementRule_eq,
    handOver_eq_of_declined accountedThere declines.room declined same]

end Stmt

end Stencil
