import Stencil.Json.Decode
import Stencil.Json.Encode

/-!
# Records and their parts

What is written of a node, of a list or of a value that may be missing is read back as it was, as
long as the values inside it are. The other way around, each value inside something that is read was
read itself.
-/

namespace Stencil.Json

variable {α : Type} {value? : Json → Option α} {toJson : α → Json}

/-! ### Reading what is written -/

/-- A form with its origin is read back, if the line has 64 bits. -/
theorem node?_node {origin : Origin} (fits : origin.line ≤ maxWord) (form : Json) :
    node? (node origin form) = some (form, origin) := by
  have isLine : word? (ofNat origin.line) = some origin.line := if_pos fits
  rcases origin with ⟨line, _ | sourceName⟩ <;>
    simp [node, node?, record?, fields?, field?, isLine, ofText?, optional?, text?]

@[simp]
theorem form?_form (label : String) (parts : Json) :
    form? (form label parts) = some (label, some parts) := rfl

@[simp]
theorem form?_string (label : String) : form? (string label) = some (label, none) := rfl

@[simp]
theorem text?_string (text : String) : text? (string text) = some text := rfl

@[simp]
theorem bool?_bool (value : Bool) : bool? (bool value) = some value := rfl

@[simp]
theorem ofJson?_binaryLabel (op : BinaryOp) : BinaryOp.ofJson? (string op.label) = some op := by
  cases op <;> rfl

@[simp]
theorem ofJson?_unaryLabel (op : UnaryOp) : UnaryOp.ofJson? (string op.label) = some op := by
  cases op <;> rfl

theorem mapM_map_eq_some {items : List α}
    (readsBack : ∀ item ∈ items, value? (toJson item) = some item) :
    (items.map toJson).mapM value? = some items := by
  induction items with
  | nil => rfl
  | cons first rest ih =>
    rw [List.map_cons, List.mapM_cons, readsBack first List.mem_cons_self,
      ih fun item isItem => readsBack item (List.mem_cons_of_mem first isItem)]
    rfl

/-- A list is read back if its items are. -/
theorem list?_array {items : List α}
    (readsBack : ∀ item ∈ items, value? (toJson item) = some item) :
    list? value? (array (items.map toJson)) = some items :=
  mapM_map_eq_some readsBack

theorem list?_ofTexts (texts : List String) : list? text? (ofTexts texts) = some texts :=
  list?_array fun _ _ => rfl

/-- A value that may be missing is read back if it is when it is there. -/
theorem optional?_elim {optional : Option α} (notNull : ∀ value, toJson value ≠ null)
    (readsBack : ∀ value, optional = some value → value? (toJson value) = some value) :
    optional? value? (some (optional.elim null toJson)) = some optional := by
  cases optional with
  | none => rfl
  | some value =>
    have isRead := readsBack value rfl
    have isThere := notNull value
    simp only [Option.elim_some]
    cases isJson : toJson value with
    | null => exact absurd isJson isThere
    | _ =>
      rw [isJson] at isRead
      simp [optional?, isRead]

/-- Named values are read back from objects. -/
theorem list?_ofNamed {named : List (Named α)}
    (readsBack : ∀ entry ∈ named, value? (toJson entry.value) = some entry.value) :
    list? (named? value?) (ofNamed (named.map fun entry => ⟨entry.name, toJson entry.value⟩)) =
      some named := by
  rw [ofNamed, List.map_map]
  refine list?_array fun entry isEntry => ?_
  simp [named?, record?, fields?, field?, readsBack entry isEntry]

/-- Named values are read back from pairs. -/
theorem list?_ofAssignments {named : List (Named α)}
    (readsBack : ∀ entry ∈ named, value? (toJson entry.value) = some entry.value) :
    list? (pair? value?)
      (ofAssignments (named.map fun entry => ⟨entry.name, toJson entry.value⟩)) = some named := by
  rw [ofAssignments, List.map_map]
  refine list?_array fun entry isEntry => ?_
  simp [pair?, readsBack entry isEntry]

/-! ### Depths -/

@[simp]
theorem depth_node (origin : Origin) (form : Json) : (node origin form).depth = form.depth + 1 := by
  rcases origin with ⟨line, _ | sourceName⟩ <;> simp [node, depth, depthOfFields, ofNat, ofText?]

@[simp]
theorem depth_form (label : String) (parts : Json) :
    (form label parts).depth = parts.depth + 1 := by
  simp [form, depth, depthOfFields]

theorem depth_le_depthOfList {items : List Json} {item : Json} (isItem : item ∈ items) :
    item.depth ≤ depthOfList items := by
  induction items with
  | nil => cases isItem
  | cons first rest ih =>
    rw [depthOfList]
    rcases List.mem_cons.mp isItem with rfl | isItem
    · exact Nat.le_max_left _ _
    · exact Nat.le_trans (ih isItem) (Nat.le_max_right _ _)

theorem depth_lt_ofNamed {named : List (Named Json)} {entry : Named Json}
    (isEntry : entry ∈ named) : entry.value.depth < (ofNamed named).depth := by
  rw [ofNamed, depth]
  refine Nat.lt_succ_of_lt (Nat.lt_of_lt_of_le ?_
    (depth_le_depthOfList (List.mem_map_of_mem isEntry)))
  simp [depth, depthOfFields]

/-! ### What was read -/

/-- Whatever a computation gives has a property. -/
def Yields (property : α → Prop) (given : Option α) : Prop :=
  ∀ value, given = some value → property value

namespace Yields

variable {β : Type} {property : β → Prop}

theorem nothing : Yields property none := nofun

theorem value {value : β} (holds : property value) : Yields property (some value) := by
  rintro _ ⟨⟩
  exact holds

theorem bind {given : Option α} {next : α → Option β}
    (yields : ∀ value, given = some value → Yields property (next value)) :
    Yields property (given >>= next) := by
  intro result isResult
  obtain ⟨value, isValue, isResult⟩ := Option.bind_eq_some_iff.mp isResult
  exact yields value isValue result isResult

end Yields

/-- A value was read from some JSON value. -/
def IsRead (value? : Json → Option α) (value : α) : Prop :=
  ∃ json, value? json = some value

theorem word?_yields (json : Json) : Yields (· ≤ maxWord) (word? json) := by
  unfold word?
  split
  · split
    · next fits => exact .value fits
    · exact .nothing
  · exact .nothing

theorem integer?_yields (json : Json) :
    Yields (fun value => -(Literal.maxInteger + 1 : Int) ≤ value ∧ value ≤ Literal.maxInteger)
      (integer? json) := by
  unfold integer?
  split
  · split
    · next fits => exact .value fits
    · exact .nothing
  · exact .nothing

namespace IsRead

variable {json : Json} {value : α}

/-- What holds of everything that is given holds of what was read. -/
theorem of_yields (isRead : IsRead value? value) {property : α → Prop}
    (yields : ∀ json, Yields property (value? json)) : property value := by
  obtain ⟨json, isRead⟩ := isRead
  exact yields json value isRead

theorem of_bind {field : Option Json} (isValue : field.bind value? = some value) :
    IsRead value? value := by
  obtain ⟨json, _, isValue⟩ := Option.bind_eq_some_iff.mp isValue
  exact ⟨json, isValue⟩

theorem of_optional {field : Option Json} (isValue : optional? value? field = some (some value)) :
    IsRead value? value := by
  unfold optional? at isValue
  split at isValue
  · cases isValue
  · cases isValue
  · obtain ⟨_, isValue, same⟩ := Option.map_eq_some_iff.mp isValue
    cases same
    exact ⟨_, isValue⟩

/-- The items of a list that is read are read themselves. -/
theorem of_list {items : List α} (isList : IsRead (list? value?) items) :
    ∀ item ∈ items, IsRead value? item := by
  obtain ⟨json, isList⟩ := isList
  cases json with
  | array values =>
    replace isList : values.mapM value? = some items := isList
    induction values generalizing items with
    | nil =>
      cases isList
      exact fun _ isItem => absurd isItem List.not_mem_nil
    | cons json values ih =>
      simp only [List.mapM_cons, Option.bind_eq_bind, Option.bind_eq_some_iff] at isList
      obtain ⟨first, isFirst, rest, isRest, same⟩ := isList
      cases same
      exact List.forall_mem_cons.mpr ⟨⟨json, isFirst⟩, ih isRest⟩
  | _ => cases isList

theorem of_items {field : Option Json} {items : List α}
    (areItems : field.bind (list? value?) = some items) {item : α} (isItem : item ∈ items) :
    IsRead value? item :=
  of_list (of_bind areItems) item isItem

theorem of_named {entry : Named α} (isEntry : IsRead (named? value?) entry) :
    IsRead value? entry.value := by
  have yields (json : Json) :
      Yields (fun entry => IsRead value? entry.value) (named? value? json) := by
    refine .bind fun given _ => ?_
    split
    · exact .bind fun _ _ => .bind fun _ isValue => .value (of_bind isValue)
    · exact .nothing
  exact isEntry.of_yields yields

theorem of_pair {entry : Named α} (isEntry : IsRead (pair? value?) entry) :
    IsRead value? entry.value := by
  have yields (json : Json) :
      Yields (fun entry => IsRead value? entry.value) (pair? value? json) := by
    unfold pair?
    split
    · exact .bind fun _ _ => .bind fun _ isValue => .value ⟨_, isValue⟩
    · exact .nothing
  exact isEntry.of_yields yields

end IsRead

/-- The line of a node that is read has 64 bits. -/
theorem node?_yields (json : Json) :
    Yields (fun read : Json × Origin => read.2.line ≤ maxWord) (node? json) := by
  refine .bind fun given _ => ?_
  split
  · exact .bind fun _ _ => .bind fun _ isLine => .bind fun _ _ => .value
      ((IsRead.of_bind isLine).of_yields word?_yields)
  · exact .nothing

end Stencil.Json
