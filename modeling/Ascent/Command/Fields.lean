import Ascent.Command.Params
import Ascent.Modifier
import Ascent.Named

/-!
Which arguments of a command set which fields of a record.

A key is compared in compact form with a list of keys that are let through; all others are dropped,
and so are blank values. Lists are split and deduplicated, percentages bounded, names sanitised.

Main exports: `FieldValue`, `pickFields`, the lists of keys, and `put` for each kind of record.
-/

namespace Ascent

/-- What a field is set to. -/
inductive FieldValue where
  | text (s : String)
  | texts (items : List String)
  | percent (n : Int)
deriving DecidableEq, Repr

/-- How the value of a field is read. -/
inductive FieldKind where
  | name
  | text
  | list
  | percent
deriving DecidableEq, Repr

/-- The value of a field of a kind, where the text can be read as one. -/
def FieldKind.read? (kind : FieldKind) (raw : String) : Option FieldValue :=
  match kind with
  | .name => some (.text (sanitizeName raw))
  | .text => some (.text (Text.trim raw))
  | .list => some (.texts (Loose.dedupe (Loose.partsOfText raw)))
  | .percent => (Loose.integerOfText? raw).map fun n => .percent (max 0 (min 100 n))

/-- Fields with one more set: in its place if it was set before, at the end otherwise. -/
def putField {F : Type} [DecidableEq F] (f : F) (v : FieldValue) :
    List (F × FieldValue) → List (F × FieldValue)
  | [] => [(f, v)]
  | (g, w) :: rest => if g = f then (g, v) :: rest else (g, w) :: putField f v rest

/-- The field that an argument sets and its value, where the key is let through and the value is not
blank and can be read. -/
def pickField? {F : Type} (keys : List (String × F)) (kind : F → FieldKind)
    (arg : String × Option String) : Option (F × FieldValue) := do
  let field ← keys.lookup (compactKey arg.1)
  let raw ← arg.2
  if Text.isBlankText raw then none else return (field, ← (kind field).read? raw)

/-- The fields that arguments set; of two arguments for one field the later counts. -/
def pickFields {F : Type} [DecidableEq F] (keys : List (String × F)) (kind : F → FieldKind)
    (params : Params) : List (F × FieldValue) :=
  (params.filterMap (pickField? keys kind)).foldl (fun fields (f, v) => putField f v fields) []

section

variable {F : Type} [DecidableEq F]

theorem mem_putField {f : F} {v : FieldValue} {fields : List (F × FieldValue)}
    {x : F × FieldValue} (member : x ∈ putField f v fields) : x ∈ fields ∨ x = (f, v) := by
  induction fields with
  | nil => exact .inr (List.mem_singleton.mp member)
  | cons first rest ih =>
      rw [putField] at member
      split at member
      · next same =>
          rcases List.mem_cons.mp member with rfl | later
          · exact .inr (by rw [same])
          · exact .inl (List.mem_cons_of_mem first later)
      · rcases List.mem_cons.mp member with rfl | later
        · exact .inl List.mem_cons_self
        · exact (ih later).imp_left (List.mem_cons_of_mem first)

/-- Every field that arguments set is set by one of them. -/
theorem exists_of_mem_pickFields {keys : List (String × F)} {kind : F → FieldKind}
    {params : Params} {x : F × FieldValue} (member : x ∈ pickFields keys kind params) :
    ∃ arg ∈ params, pickField? keys kind arg = some x := by
  have onto (picked kept : List (F × FieldValue))
      (h : x ∈ picked.foldl (fun fields (f, v) => putField f v fields) kept) :
      x ∈ kept ∨ x ∈ picked := by
    induction picked generalizing kept with
    | nil => exact .inl h
    | cons first rest ih =>
        rcases ih _ h with before | later
        · rcases mem_putField before with old | rfl
          · exact .inl old
          · exact .inr List.mem_cons_self
        · exact .inr (List.mem_cons_of_mem first later)
  exact List.mem_filterMap.mp ((onto _ [] member).resolve_left List.not_mem_nil)

/-- A field is set under a key that is let through, to a value that a text was read as. -/
theorem of_mem_pickFields {keys : List (String × F)} {kind : F → FieldKind} {params : Params}
    {x : F × FieldValue} (member : x ∈ pickFields keys kind params) :
    x.1 ∈ keys.map Prod.snd ∧ ∃ raw, (kind x.1).read? raw = some x.2 := by
  obtain ⟨arg, _, picked⟩ := exists_of_mem_pickFields member
  simp only [pickField?, Option.bind_eq_bind, Option.bind_eq_some_iff] at picked
  obtain ⟨f, known, raw, _, picked⟩ := picked
  split at picked
  · cases picked
  · obtain ⟨v, read, picked⟩ := Option.bind_eq_some_iff.mp picked
    obtain ⟨before, after, split, _⟩ := List.lookup_eq_some_iff.mp known
    rw [← Option.some.inj picked]
    exact ⟨by simp [split], raw, read⟩

end

/-- The value that a field is set to. -/
def fieldValue? {F : Type} [DecidableEq F] (fields : List (F × FieldValue)) (f : F) :
    Option FieldValue := (fields.find? (·.1 = f)).map (·.2)

/-- The text that a field is set to. -/
def FieldValue.asText : FieldValue → String
  | .text s => s
  | _ => ""

/-- The list that a field is set to. -/
def FieldValue.asTexts : FieldValue → List String
  | .texts items => items
  | _ => []

/-- The number that a field is set to. -/
def FieldValue.asInt : FieldValue → Int
  | .percent n => n
  | _ => 0

/-- What setting one field leaves as it is, setting several leaves as it is. -/
theorem get_foldl_put {α F β : Type} (get : α → β) {put : F → FieldValue → α → α}
    (kept : ∀ f v a, get (put f v a) = get a) (fields : List (F × FieldValue)) (a : α) :
    get (fields.foldl (fun a (f, v) => put f v a) a) = get a := by
  induction fields generalizing a with
  | nil => rfl
  | cons first rest ih => exact (ih (put first.1 first.2 a)).trans (kept first.1 first.2 a)

/-! ### People -/

/-- The keys for people. -/
def personKeys : List (String × PersonField) :=
  [("name", .name), ("description", .description), ("personality", .personality),
   ("thoughtsonplayer", .thoughtsOnPlayer), ("thoughts", .thoughtsOnPlayer),
   ("stance", .thoughtsOnPlayer), ("physicalstate", .physicalState), ("category", .category),
   ("customcategory", .category), ("location", .location), ("locationid", .location),
   ("tags", .tags), ("tier", .tier), ("realm", .tier), ("archetype", .archetype),
   ("aptitude", .aptitude), ("physique", .physique), ("specialphysique", .physique),
   ("spiritualroot", .spiritualRoot), ("race", .race), ("title", .title),
   ("resistance", .resistance), ("willpower", .willpower)]

/-- The keys for people who are known already. -/
def personUpdateKeys : List (String × PersonField) :=
  personKeys.filter fun (_, f) =>
    [.thoughtsOnPlayer, .physicalState, .description, .personality, .location].contains f

/-- The keys for captives. -/
def captiveKeys : List (String × PersonField) :=
  personKeys.filter fun (_, f) => [.resistance, .willpower].contains f

/-- How the fields of people are read. -/
def PersonField.kind : PersonField → FieldKind
  | .name => .name
  | .tags => .list
  | .resistance | .willpower => .percent
  | _ => .text

/-- A person with a field set. -/
def Person.put (f : PersonField) (v : FieldValue) (p : Person) : Person :=
  match f with
  | .description => { p with description := v.asText }
  | .personality => { p with personality := v.asText }
  | .thoughtsOnPlayer => { p with thoughtsOnPlayer := v.asText }
  | .physicalState => { p with physicalState := v.asText }
  | .category => { p with category := v.asText }
  | .location => { p with location := v.asText }
  | .tags => { p with tags := v.asTexts }
  | .tier => { p with tier := some v.asText }
  | .archetype => { p with archetype := some v.asText }
  | .aptitude => { p with aptitude := some v.asText }
  | .physique => { p with physique := some v.asText }
  | .spiritualRoot => { p with spiritualRoot := some v.asText }
  | .race => { p with race := some v.asText }
  | .title => { p with title := some v.asText }
  | .resistance => { p with resistance := v.asInt }
  | .willpower => { p with willpower := v.asInt }
  | _ => p

/-- A person with fields set; the name stays. -/
def Person.putAll (p : Person) (fields : List (PersonField × FieldValue)) : Person :=
  let fields := fields.filter (·.1 ≠ .name)
  (fields.foldl (fun p (f, v) => p.put f v) p).giving (fields.map (·.1))

/-- What is kept whichever field is set, and whatever counts as set, is kept by setting several. -/
theorem Person.putAll_keeps {P : Person → Prop} {p : Person}
    {fields : List (PersonField × FieldValue)} (kept : P p)
    (put : ∀ q, ∀ x ∈ fields, P q → P (q.put x.1 x.2))
    (giving : ∀ q given, P q → P (q.giving given)) : P (p.putAll fields) := by
  refine giving _ _ (List.foldlRecOn _ _ kept fun q before x member => ?_)
  exact put q x (List.mem_filter.mp member).1 before

/-! ### Items -/

/-- The keys for items. -/
def itemKeys : List (String × ItemField) :=
  [("name", .name), ("description", .description), ("category", .category),
   ("customcategory", .category), ("rarity", .rarity), ("tier", .tier), ("realm", .tier),
   ("itemrealm", .tier), ("tags", .tags), ("specialeffects", .specialEffects),
   ("uniqueeffects", .specialEffects), ("effects", .specialEffects)]

/-- How the fields of items are read. -/
def ItemField.kind : ItemField → FieldKind
  | .name => .name
  | .tags | .specialEffects => .list
  | _ => .text

/-- An item with a field set. -/
def Item.put (f : ItemField) (v : FieldValue) (i : Item) : Item :=
  match f with
  | .description => { i with description := v.asText }
  | .category => { i with category := v.asText }
  | .rarity => { i with rarity := v.asText }
  | .tier => { i with tier := some v.asText }
  | .tags => { i with tags := v.asTexts }
  | .specialEffects => { i with specialEffects := v.asTexts }
  | _ => i

/-- An item with fields set; the name stays. -/
def Item.putAll (i : Item) (fields : List (ItemField × FieldValue)) : Item :=
  fields.foldl (fun i (f, v) => i.put f v) i

/-! ### Lore and factions -/

/-- The keys for lore. -/
def loreKeys : List (String × LoreField) :=
  [("name", .name), ("description", .description), ("category", .category),
   ("customcategory", .category), ("tags", .tags), ("location", .location),
   ("locationid", .location)]

/-- How the fields of lore are read. -/
def LoreField.kind : LoreField → FieldKind
  | .name => .name
  | .tags => .list
  | _ => .text

/-- An entry with a field set. -/
def LoreEntry.put (f : LoreField) (v : FieldValue) (e : LoreEntry) : LoreEntry :=
  match f with
  | .name => e
  | .entityType => { e with entityType := v.asText }
  | .description => { e with description := v.asText }
  | .category => { e with category := v.asText }
  | .tags => { e with tags := v.asTexts }
  | .location => { e with location := v.asText }

/-- An entry with fields set; the name stays. -/
def LoreEntry.putAll (e : LoreEntry) (fields : List (LoreField × FieldValue)) : LoreEntry :=
  fields.foldl (fun e (f, v) => e.put f v) e

/-- The keys for factions. -/
def factionKeys : List (String × FactionField) :=
  [("name", .name), ("description", .description), ("category", .category),
   ("customcategory", .category), ("tags", .tags)]

/-- How the fields of factions are read. -/
def FactionField.kind : FactionField → FieldKind
  | .name => .name
  | .tags => .list
  | _ => .text

/-- A faction with a field set. -/
def Faction.put (f : FactionField) (v : FieldValue) (x : Faction) : Faction :=
  match f with
  | .name => x
  | .description => { x with description := v.asText }
  | .category => { x with category := v.asText }
  | .tags => { x with tags := v.asTexts }

/-- A faction with fields set; the name stays. -/
def Faction.putAll (x : Faction) (fields : List (FactionField × FieldValue)) : Faction :=
  fields.foldl (fun x (f, v) => x.put f v) x

end Ascent
