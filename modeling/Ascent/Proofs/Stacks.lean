import Ascent.Proofs.Documents
import Ascent.Proofs.Refusal
import Ascent.Proofs.Retelling

/-!
Inventory bookkeeping is exact.

The stacks of an inventory are read as a table from folded names to stacks. Taking, losing and
wearing each touch one entry of it, the one that the command addresses; the rest of the table stays.
So the number held of a name is a sum over the commands that are addressed to it.

Main exports: `GameState.stack?`, `GameState.held`, `GameState.Tidy`, `GameState.Turns`,
`Command.addressed`, `Command.books`, `turns_of_dispatch`, `stacks_add_up`.
-/

namespace Ascent

open Text

/-! ### Records as a table -/

section

variable {α : Type} [Named α] {records before after : List α} {key called : String} {q : α}
  {place : Nat}

theorem goesBy_eq_true {r : α} : goesBy key r = true ↔ fold (name r) = key := beq_iff_eq

theorem find?_goesBy_eq_none :
    records.find? (goesBy key) = none ↔ key ∉ records.map fun r => fold (name r) := by
  simp [goesBy]

/-- Where others of its name stand in the place of a record, the first of them is found for it, and
nothing else is found otherwise. -/
theorem find?_replaced (new : List α) (distinct : NamesDistinct (before ++ q :: after))
    (same : ∀ r ∈ new, fold (name r) = fold (name q)) (key : String) :
    (before ++ (new ++ after)).find? (goesBy key) =
      if fold (name q) = key then new.head? else (before ++ q :: after).find? (goesBy key) := by
  rw [NamesDistinct, List.map_append, List.map_cons] at distinct
  obtain ⟨first, second⟩ := List.nodup_middle.mp distinct |> List.nodup_cons.mp
  simp only [List.mem_append, not_or] at first
  split
  · next here =>
      subst here
      rw [List.find?_append, List.find?_append, find?_goesBy_eq_none.mpr first.1,
        find?_goesBy_eq_none.mpr first.2, Option.none_or, Option.or_none]
      cases new with
      | nil => rfl
      | cons r rest =>
          exact List.find?_cons_of_pos (goesBy_eq_true.mpr (same r List.mem_cons_self))
  · next other =>
      have none : new.find? (goesBy key) = none :=
        List.find?_eq_none.mpr fun r member goes =>
          other ((same r member).symm.trans (goesBy_eq_true.mp goes))
      have apart : ¬ goesBy key q = true := fun goes => other (goesBy_eq_true.mp goes)
      rw [List.find?_append, List.find?_append, none, Option.none_or, List.find?_append,
        List.find?_cons_of_neg apart]

omit [Named α] in
theorem take_getElem_drop (bound : place < records.length) :
    records.take place ++ records[place] :: records.drop (place + 1) = records := by
  rw [List.getElem_cons_drop, List.take_append_drop]

theorem find?_set (distinct : NamesDistinct records) (there : records[place]? = some q) {r : α}
    (same : name r = name q) (key : String) :
    (records.set place r).find? (goesBy key) =
      if fold (name q) = key then some r else records.find? (goesBy key) := by
  obtain ⟨bound, rfl⟩ := List.getElem?_eq_some_iff.mp there
  have split := take_getElem_drop bound
  have replaced := find?_replaced [r] (split.symm ▸ distinct)
    (by simpa using congrArg fold same) key
  rw [split] at replaced
  rw [List.set_eq_take_append_cons_drop, if_pos bound]
  exact replaced

theorem find?_eraseIdx (distinct : NamesDistinct records) (there : records[place]? = some q)
    (key : String) :
    (records.eraseIdx place).find? (goesBy key) =
      if fold (name q) = key then none else records.find? (goesBy key) := by
  obtain ⟨bound, rfl⟩ := List.getElem?_eq_some_iff.mp there
  have split := take_getElem_drop bound
  have replaced := find?_replaced [] (split.symm ▸ distinct) (by simp) key
  rw [split] at replaced
  rw [List.eraseIdx_eq_take_drop_succ]
  exact replaced

/-- What a narrator's name finds is the first record under what is left of the name. -/
theorem find?_of_findNamed? (h : findNamed? records called = some (place, q)) :
    records.find? (goesBy (fold (sanitizeName called))) = some q := by
  simp only [findNamed?, Option.bind_eq_bind, Option.bind_eq_some_iff, Option.some.injEq,
    Prod.mk.injEq, findPlace?] at h
  obtain ⟨i, here, r, at_, rfl, rfl⟩ := h
  split at here
  · cases here
  · obtain ⟨bound, goes, first⟩ := List.findIdx?_eq_some_iff_getElem.mp here
    rw [List.getElem?_eq_getElem bound] at at_
    rw [List.find?_eq_some_iff_getElem, ← Option.some.inj at_]
    exact ⟨goes, i, bound, rfl, fun j earlier => by simpa using first j earlier⟩

theorem find?_of_findNamed?_none (written : fold (sanitizeName called) ≠ "")
    (h : findNamed? records called = none) :
    records.find? (goesBy (fold (sanitizeName called))) = none :=
  find?_goesBy_eq_none.mpr (not_mem_names_of_hasNamed written (hasNamed_of_findNamed?_none h))

end

namespace GameState

/-- The stack of a folded name. -/
def stack? (s : GameState) (key : String) : Option Item := s.inventory.find? (goesBy key)

/-- How many items are held under a folded name. -/
def held (s : GameState) (key : String) : Int := ((s.stack? key).map (·.quantity)).getD 0

/-- Each name has one stack, and no stack is empty. -/
structure Tidy (s : GameState) : Prop where
  distinct : NamesDistinct s.inventory
  stocked : s.Stocked

/-- So many items are held under a name now, and the stacks of other names are as they were. -/
structure Turns (s : GameState) (key : String) (count : Int) (t : GameState) : Prop where
  tidy : t.Tidy
  held : t.held key = count
  others : ∀ other, other ≠ key → t.stack? other = s.stack? other

variable {s t : GameState} {key : String} {count : Int} {known i : Item} {place : Nat}

theorem stack?_congr (same : t.inventory = s.inventory) (key : String) :
    t.stack? key = s.stack? key := by
  rw [stack?, same, stack?]

theorem held_congr (same : t.stack? key = s.stack? key) : t.held key = s.held key := by
  rw [held, same, held]

theorem held_of_stack? (found : s.stack? key = some i) : s.held key = i.quantity := by
  rw [held, found]
  rfl

theorem held_of_none (none : s.stack? key = none) : s.held key = 0 := by
  rw [held, none]
  rfl

/-- A stack is there exactly where something is held. -/
theorem Tidy.isSome_stack?_iff (h : s.Tidy) (key : String) :
    (s.stack? key).isSome ↔ 0 < s.held key := by
  cases found : s.stack? key with
  | none => simp [held_of_none found]
  | some i =>
      have stocked := h.stocked i (List.mem_of_find?_eq_some found)
      rw [held_of_stack? found]
      simp only [Option.isSome_some, true_iff]
      omega

theorem Tidy.held_nonneg (h : s.Tidy) (key : String) : 0 ≤ s.held key := by
  cases found : s.stack? key with
  | none => rw [held_of_none found]
  | some i => exact ((h.isSome_stack?_iff key).mp (found ▸ rfl)).le

/-- Nothing is taken up or laid down. -/
theorem Turns.rest (tidy : s.Tidy) (same : t.inventory = s.inventory) (key : String) :
    s.Turns key (s.held key) t where
  tidy := ⟨same ▸ tidy.distinct, fun i member => tidy.stocked i (same ▸ member)⟩
  held := held_congr (stack?_congr same key)
  others := fun other _ => stack?_congr same other

/-- Restoring a tidy state leaves every stack. -/
theorem Turns.legalize (h : s.Turns key count t) : s.Turns key count t.legalize := by
  have kept : t.legalize.inventory = t.inventory := inventory_legalize h.tidy.stocked
  have rest := Turns.rest h.tidy kept key
  exact ⟨rest.tidy, rest.held.trans h.held,
    fun other apart => (stack?_congr kept other).trans (h.others other apart)⟩

/-- One entry of the table has changed, and the state is tidy again. -/
theorem Turns.of_view (found : Option Item) (tidy : t.Tidy)
    (view : ∀ other, t.stack? other = if key = other then found else s.stack? other) :
    s.Turns key ((found.map (·.quantity)).getD 0) t where
  tidy := tidy
  held := by rw [GameState.held, view, if_pos rfl]
  others := fun other apart => by rw [view, if_neg (Ne.symm apart)]

/-- A stack gives way to another one of its name. -/
theorem Turns.replaced (tidy : s.Tidy) (there : s.inventory[place]? = some known)
    (same : i.name = known.name) (stocked : 1 ≤ i.quantity)
    (replaced : t.inventory = s.inventory.set place i) :
    s.Turns (fold known.name) i.quantity t := by
  apply Turns.of_view (some i)
  · constructor
    · exact replaced ▸ tidy.distinct.set there same
    · exact fun i member => stocked_set place tidy.stocked stocked i (replaced ▸ member)
  · intro other
    rw [stack?, replaced]
    exact find?_set tidy.distinct there same other

/-- A stack is gone. -/
theorem Turns.erased (tidy : s.Tidy) (there : s.inventory[place]? = some known)
    (erased : t.inventory = s.inventory.eraseIdx place) : s.Turns (fold known.name) 0 t := by
  apply Turns.of_view none
  · constructor
    · exact erased ▸ tidy.distinct.eraseIdx place
    · exact fun i member => tidy.stocked i (List.mem_of_mem_eraseIdx (erased ▸ member))
  · intro other
    rw [stack?, erased]
    exact find?_eraseIdx tidy.distinct there other

/-- A stack of a new name stands after the others. -/
theorem Turns.added (tidy : s.Tidy) (none : s.stack? (fold i.name) = none)
    (stocked : 1 ≤ i.quantity) (added : t.inventory = s.inventory ++ [i]) :
    s.Turns (fold i.name) i.quantity t := by
  apply Turns.of_view (some i)
  · constructor
    · exact added ▸ tidy.distinct.append (find?_goesBy_eq_none.mp none)
    · intro j member
      rw [added] at member
      rcases List.mem_append.mp member with old | new
      · exact tidy.stocked j old
      · exact List.mem_singleton.mp new ▸ stocked
  · intro other
    rw [stack?, added, List.find?_append]
    split
    · next here =>
        subst here
        have last : [i].find? (goesBy (fold i.name)) = some i :=
          List.find?_cons_of_pos (goesBy_eq_true.mpr rfl)
        rw [← stack?, none, Option.none_or, last]
    · next apart =>
        have last : [i].find? (goesBy other) = .none :=
          List.find?_cons_of_neg (mt goesBy_eq_true.mp apart)
        rw [last, Option.or_none, stack?]

end GameState

open GameState

/-! ### The commands -/

section

variable {s : GameState} {params : Params} {effect : Effect} {called : String}

theorem carried_eq_held (written : fold (sanitizeName called) ≠ "") :
    s.carried called = s.held (fold (sanitizeName called)) := by
  unfold GameState.carried
  cases found : findNamed? s.inventory called with
  | none => exact (held_of_none (find?_of_findNamed?_none written found)).symm
  | some at_ => exact (held_of_stack? (find?_of_findNamed? found)).symm

/-- Items that are taken are counted on their stack, which is begun if there is none. -/
theorem addItem_turns (tidy : s.Tidy) (written : isBlankText (params.required "name") = false)
    (settled : Settled (params.required "name")) (done : addItem s params = .ok effect) :
    let key := fold (sanitizeName (params.required "name"))
    s.Turns key (s.held key + askedQuantity params) effect.state := by
  intro key
  have written : key ≠ "" := fold_sanitizeName_ne written
  have carried : s.carried (params.required "name") = s.held key := carried_eq_held written
  obtain ⟨bonuses, worth, -, ⟨place, known, found, stored⟩ | ⟨missing, some_, same⟩⟩ :=
    addItem_eq_ok done
  · have called : fold known.name = key := (fold_name_of_findNamed? found).2.trans settled
    have turns := Turns.replaced tidy (getElem?_of_findNamed? found)
      (s.gained_name params known bonuses worth) (gained_quantity_pos _ _ _ _ tidy.stocked)
      (inventory_withInventory stored)
    rwa [called, gained_quantity, carried] at turns
  · have fresh := find?_of_findNamed?_none (settled.symm ▸ written) missing
    rw [settled] at fresh
    have named := s.gained_name params { name := sanitizeName (params.required "name") } bonuses
      worth
    have count := s.gained_quantity params { name := sanitizeName (params.required "name") } bonuses
      worth
    generalize s.gained params _ bonuses worth = item at same named count
    have called : fold item.name = key := congrArg fold named
    rw [carried] at count some_
    have turns := Turns.added tidy (called.symm ▸ fresh) (count.symm ▸ some_)
      (congrArg (·.inventory) same)
    rwa [called, count] at turns

/-- Items that are lost are taken off their stack, which is gone when none are left. -/
theorem removeItem_turns (tidy : s.Tidy) (written : isBlankText (params.required "name") = false)
    (done : removeItem s params = .ok effect) :
    let key := fold (sanitizeName (params.required "name"))
    s.Turns key (max 0 (s.held key - askedQuantity params)) effect.state := by
  intro key
  have asked := askedQuantity_pos params
  have written : key ≠ "" := fold_sanitizeName_ne written
  unfold removeItem at done
  split at done
  · next none =>
      have empty := held_of_none (find?_of_findNamed?_none written none)
      rw [← Except.ok.inj done]
      have rest := Turns.rest tidy (t := s) rfl key
      rw [empty] at rest
      rwa [empty, Int.max_eq_left (by omega)]
  · next place item found =>
      have there := getElem?_of_findNamed? found
      have called : fold item.name = key := (fold_name_of_findNamed? found).2
      have held := held_of_stack? (find?_of_findNamed? found)
      obtain ⟨state, stored, done⟩ := exists_of_bind_eq_ok done
      have left := inventory_withInventory stored
      rw [held, ← called, ← Except.ok.inj done]
      split at left
      · next all =>
          rw [Int.max_eq_left (by omega)]
          exact Turns.erased tidy there left
      · next part =>
          rw [Int.max_eq_right (by omega)]
          exact Turns.replaced
            (i := { item with quantity := item.quantity - askedQuantity params }) tidy there rfl
            (by dsimp only; omega) left

/-- An item that is put on or taken off stays what it is in number. -/
theorem wearItem_turns {worn : Bool} (tidy : s.Tidy) (done : wearItem worn s params = .ok effect) :
    let key := fold (sanitizeName (params.required "name"))
    s.Turns key (s.held key) effect.state := by
  intro key
  unfold wearItem at done
  split at done
  · rw [← Except.ok.inj done]
    exact Turns.rest tidy rfl key
  · next place item found =>
      split at done
      · rw [← Except.ok.inj done]
        exact Turns.rest tidy rfl key
      · have there := getElem?_of_findNamed? found
        have called : fold item.name = key := (fold_name_of_findNamed? found).2
        obtain ⟨state, stored, done⟩ := exists_of_bind_eq_ok done
        have held := held_of_stack? (find?_of_findNamed? found)
        rw [held, ← called, ← Except.ok.inj done]
        exact Turns.replaced (i := { item with equipped := worn }) tidy there rfl
          (tidy.stocked item (mem_of_findNamed? found)) (inventory_withInventory stored)

end

/-- The commands that touch stacks. -/
def stackTags : List String := ["ITEM_ADD", "ITEM_REMOVE", "ITEM_EQUIP", "ITEM_UNEQUIP"]

namespace Command

/-- The folded name that a command addresses. -/
def addressed (c : Command) : String := fold (sanitizeName (c.params.required "name"))

/-- How many items a command is about, within one and the most. -/
def amount (c : Command) : Int := max 1 (min 9999 ((c.params.integer? "quantity").getD 1))

/-- What a command makes of the number that is held under a folded name. -/
def books (key : String) (held : Int) (c : Command) : Int :=
  if c.addressed ≠ key then held
  else if upper c.name = "ITEM_ADD" then held + c.amount
  else if upper c.name = "ITEM_REMOVE" then max 0 (held - c.amount)
  else held

variable {c : Command} {key : String} {held : Int}

theorem books_of_ne (other : c.addressed ≠ key) : books key held c = held := by
  rw [books, if_pos other]

theorem books_addressed : books c.addressed held c =
    if upper c.name = "ITEM_ADD" then held + c.amount
    else if upper c.name = "ITEM_REMOVE" then max 0 (held - c.amount)
    else held := by
  rw [books, if_neg (not_not_intro rfl)]

end Command

/-- A command under such a tag has a name, and does what its kind does. -/
theorem named_of_dispatch {f : GameState → Params → Except Fault Effect} {tag : String}
    (member : (⟨tag, ["name"], false, Registry.fallible f⟩ : CommandRule) ∈ Registry.rules)
    {s : GameState} {c : Command} {supply rest : Supply} {effect : Effect}
    (same : upper c.name = upper tag)
    (h : dispatch .standard s c supply = (.ok effect, rest)) :
    isBlankText (c.params.required "name") = false ∧
      ∃ raw, f s c.params = .ok raw ∧ effect.state = raw.state.legalize := by
  constructor
  · apply Params.written_of_lacks
    exact complete_of_dispatch h (Registry.find?_of_mem member same) "name" List.mem_cons_self
  · exact done_of_dispatch member rfl same h

section

variable {s : GameState} {c : Command} {supply rest : Supply} {effect : Effect}

/-- A command that is carried out keeps book of the stack that it addresses. -/
theorem turns_of_dispatch (tidy : s.Tidy) (tag : upper c.name ∈ stackTags)
    (settled : Settled (c.params.required "name"))
    (h : dispatch .standard s c supply = (.ok effect, rest)) :
    s.Turns c.addressed (Command.books c.addressed (s.held c.addressed) c) effect.state := by
  have capitals : ∀ tag ∈ stackTags, upper tag = tag := by decide +kernel
  simp only [stackTags, List.forall_mem_cons] at capitals
  obtain ⟨upperAdd, upperRemove, upperEquip, upperUnequip, -⟩ := capitals
  simp only [stackTags, List.mem_cons, List.not_mem_nil, or_false] at tag
  rw [Command.books_addressed]
  rcases tag with add | remove | equip | unequip
  · obtain ⟨written, raw, done, same⟩ := named_of_dispatch (f := addItem)
      (by simp [Registry.rules, Registry.belongings]) (add.trans upperAdd.symm) h
    rw [same, if_pos add]
    exact (addItem_turns tidy written settled done).legalize
  · obtain ⟨written, raw, done, same⟩ := named_of_dispatch (f := removeItem)
      (by simp [Registry.rules, Registry.belongings]) (remove.trans upperRemove.symm) h
    rw [same, remove, if_neg (by decide), if_pos rfl]
    exact (removeItem_turns tidy written done).legalize
  · obtain ⟨-, raw, done, same⟩ := named_of_dispatch (f := wearItem true)
      (by simp [Registry.rules, Registry.belongings]) (equip.trans upperEquip.symm) h
    rw [same, equip, if_neg (by decide), if_neg (by decide)]
    exact (wearItem_turns tidy done).legalize
  · obtain ⟨-, raw, done, same⟩ := named_of_dispatch (f := wearItem false)
      (by simp [Registry.rules, Registry.belongings]) (unequip.trans upperUnequip.symm) h
    rw [same, unequip, if_neg (by decide), if_neg (by decide)]
    exact (wearItem_turns tidy done).legalize

/-- Whatever name one asks for, such a command makes of the number held what it books. -/
theorem held_of_dispatch (tidy : s.Tidy) (tag : upper c.name ∈ stackTags)
    (settled : Settled (c.params.required "name"))
    (h : dispatch .standard s c supply = (.ok effect, rest)) (key : String) :
    effect.state.held key = Command.books key (s.held key) c := by
  have turns := turns_of_dispatch tidy tag settled h
  by_cases here : c.addressed = key
  · exact here ▸ turns.held
  · rw [Command.books_of_ne here]
    exact held_congr (turns.others key (Ne.symm here))

end

/-! ### Runs -/

/-- What the entries of a run tell of the stacks, all commands of it carried out. -/
theorem books_of_account {commands : List Command} {s : GameState} {supply : Supply} (tidy : s.Tidy)
    (tags : ∀ c ∈ commands, upper c.name ∈ stackTags)
    (settled : ∀ c ∈ commands, Settled (c.params.required "name"))
    (accepted : (account .standard s supply commands).filterMap Entry.report? = [])
    (key : String) :
    let log := account .standard s supply commands
    let t := log.foldl (fun _ e => e.after) s
    t.Tidy ∧ t.held key = commands.foldl (Command.books key) (s.held key) ∧
      ∀ e ∈ log, e.command.addressed ≠ key → e.after.stack? key = e.seen.stack? key := by
  induction commands generalizing s supply with
  | nil => exact ⟨tidy, rfl, fun e none => absurd none List.not_mem_nil⟩
  | cons c others ih =>
      obtain ⟨tag, tags⟩ := List.forall_mem_cons.mp tags
      obtain ⟨first, settled⟩ := List.forall_mem_cons.mp settled
      rcases run : dispatch .standard s c supply with ⟨ignored | effect, rest⟩
      · rw [account_of_dispatch run] at accepted
        cases accepted
      · have turns := turns_of_dispatch tidy tag first run
        rw [account_of_dispatch run] at accepted ⊢
        obtain ⟨left, held, apart⟩ := ih turns.tidy tags settled accepted
        rw [held_of_dispatch tidy tag first run key] at held
        simp only [List.foldl_cons, List.forall_mem_cons, Entry.after_ok]
        exact ⟨left, held, fun other => turns.others key (Ne.symm other), apart⟩

/-- Inventory bookkeeping is exact. Where names are distinct and no stack is empty, and commands
that take, lose and wear items under settled names are all carried out, the number held of any name
is what it was with each command booked that is addressed to it: what is taken is added, what is
lost is taken off as long as there is any. A stack is there exactly where something is held of its
name, and commands that are addressed to others leave it as it is. -/
theorem stacks_add_up {s : GameState} {supply : Supply} {commands : List Command}
    (distinct : NamesDistinct s.inventory) (stocked : s.Stocked)
    (tags : ∀ c ∈ commands, upper c.name ∈ stackTags)
    (settled : ∀ c ∈ commands, Settled (c.params.required "name"))
    (accepted : (dispatchAll .standard s supply commands).ignored = []) (key : String) :
    let t := (dispatchAll .standard s supply commands).state
    t.held key = commands.foldl (Command.books key) (s.held key) ∧
    ((t.stack? key).isSome ↔ 0 < t.held key) ∧
    (∀ e ∈ account .standard s supply commands,
      e.command.addressed ≠ key → e.after.stack? key = e.seen.stack? key) ∧
    NamesDistinct t.inventory ∧ t.Stocked := by
  intro t
  obtain ⟨state, -, -, ignored⟩ := foldl_next_account .standard commands { state := s, supply }
  have unreported := ignored.symm.trans accepted
  obtain ⟨tidy, held, apart⟩ := books_of_account ⟨distinct, stocked⟩ tags settled unreported key
  rw [← state] at tidy held
  exact ⟨held, tidy.isSome_stack?_iff key, apart, tidy.distinct, tidy.stocked⟩

/-- Herbs are gathered twice, put on, and lost in part, while the worn sword goes as a whole. The
second time two are gathered, for a part of a herb does not count. -/
theorem stacks_add_up_herbs :
    let sword : Item := {
      name := "Sword", quantity := 2, equipped := true, statBonuses := [("atk", "5")] }
    let s : GameState := { inventory := [sword] }
    let commands : List Command := [
      ⟨"ITEM_ADD", [("name", some "Herb")]⟩,
      ⟨"item_add", [("name", some "HERB - fresh"), ("quantity", some "2.7")]⟩,
      ⟨"ITEM_EQUIP", [("name", some "herb")]⟩,
      ⟨"ITEM_REMOVE", [("name", some "sword"), ("quantity", some "9")]⟩,
      ⟨"ITEM_REMOVE", [("name", some "Herb"), ("quantity", some "one")]⟩]
    let t := (dispatchAll .standard s {} commands).state
    NamesDistinct s.inventory ∧ s.Stocked ∧ (∀ c ∈ commands, upper c.name ∈ stackTags) ∧
      (∀ c ∈ commands, Settled (c.params.required "name")) ∧
      (dispatchAll .standard s {} commands).ignored = [] ∧
      t.held "herb" = 2 ∧ (t.stack? "herb").isSome ∧ t.held "sword" = 0 ∧
      ¬(t.stack? "sword").isSome := by
  intro sword s commands t
  have distinct : NamesDistinct s.inventory := List.nodup_singleton _
  have stocked : s.Stocked := by
    unfold GameState.Stocked
    decide
  have tags : ∀ c ∈ commands, upper c.name ∈ stackTags := by decide +kernel
  have settled : ∀ c ∈ commands, Settled (c.params.required "name") := fun c member =>
    settled_of_one_line ((by decide +kernel : ∀ c ∈ commands,
      '\n' ∉ (c.params.required "name").toList) c member)
  have accepted : (dispatchAll .standard s {} commands).ignored = [] := by decide +kernel
  obtain ⟨herbs, herb, -⟩ := stacks_add_up distinct stocked tags settled accepted "herb"
  obtain ⟨swords, sword, -⟩ := stacks_add_up distinct stocked tags settled accepted "sword"
  have two : commands.foldl (Command.books "herb") (s.held "herb") = 2 := by decide +kernel
  have none : commands.foldl (Command.books "sword") (s.held "sword") = 0 := by decide +kernel
  rw [two] at herbs
  rw [none] at swords
  refine ⟨distinct, stocked, tags, settled, accepted, herbs, ?_, swords, ?_⟩
  · exact herb.mpr (by rw [herbs]; decide)
  · exact fun there => absurd (sword.mp there) (by rw [swords]; decide)

end Ascent
