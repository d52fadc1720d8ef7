import Ascent.Proofs.Reading

/-!
A saved state is loaded again.

Every leaf of a written state is a text, a truth, an integer or a finite number, and nothing is
nested deeper than a reader goes. So a state whose integers have not too many digits is read back
from its text, and what is read back is written as the state was.

Main exports: `Json.ShortIntegers`, `GameState.reload_eq`, `GameState.toJson_reloaded`.
-/

namespace Ascent

/-! ### Every leaf of a value -/

namespace Json

/-- What may stand in a record: no moment, and no number that is not finite. -/
def PlainLeaf : Json → Prop
  | .real x => x.isFinite
  | .moment _ => False
  | _ => True

/-- The integers of a value have not too many digits. -/
def ShortIntegers (j : Json) : Prop :=
  ∀ n, .int n ∈ j.leaves → (toString n).length ≤ maxIntegerDigits

/-- Whether a leaf is no integer with too many digits. -/
def isShort : Json → Bool
  | .int n => (toString n).length ≤ maxIntegerDigits
  | _ => true

theorem shortIntegers_iff {j : Json} : j.leaves.all isShort ↔ j.ShortIntegers := by
  refine List.all_eq_true.trans ⟨fun short n member => ?_, fun short leaf member => ?_⟩
  · simpa [isShort] using short _ member
  · cases leaf with
    | int n => simpa [isShort] using short n member
    | _ => rfl

instance (j : Json) : Decidable j.ShortIntegers := decidable_of_iff _ shortIntegers_iff

theorem legible_of_plain {j : Json} (plain : j.Every PlainLeaf) (short : j.ShortIntegers) :
    j.Legible := by
  intro leaf member
  have solid := plain leaf member
  cases leaf with
  | int n => exact short n member
  | real x => exact solid
  | moment m => exact solid.elim
  | _ => trivial

/-- A value that may be written: its leaves are plain, and it is nested no deeper than a bound. -/
structure Plain (depth : Nat) (j : Json) : Prop where
  leaves : j.Every PlainLeaf
  fits : j.fits depth

theorem plain_leaf {j : Json} (leaf : j.isLeaf) (plain : PlainLeaf j) (depth : Nat) :
    j.Plain depth where
  leaves := by simpa [Every, leaves_of_isLeaf leaf] using plain
  fits := by cases j <;> first | rfl | cases leaf

section

variable {depth : Nat}

@[simp] theorem plain_bool (b : Bool) : (bool b).Plain depth :=
  plain_leaf (j := .bool b) rfl trivial depth

@[simp] theorem plain_int (n : Int) : (int n).Plain depth :=
  plain_leaf (j := .int n) rfl trivial depth

@[simp] theorem plain_str (s : String) : (str s).Plain depth :=
  plain_leaf (j := .str s) rfl trivial depth

theorem plain_real {x : Double} (finite : x.isFinite) : (real x).Plain depth :=
  plain_leaf (j := .real x) rfl finite depth

theorem plain_list {items : List Json} (each : ∀ j ∈ items, j.Plain depth) :
    (list items).Plain (depth + 1) := by
  constructor
  · exact every_list.mpr fun j h => (each j h).leaves
  · have all : itemsFit depth items := by
      induction items with
      | nil => rfl
      | cons j rest ih =>
          simp only [itemsFit, Bool.and_eq_true]
          exact ⟨(each j List.mem_cons_self).fits, ih fun k h => each k (List.mem_cons_of_mem j h)⟩
    cases items <;> simp_all [Json.fits]

theorem plain_object {members : List (String × Json)} (each : ∀ m ∈ members, m.2.Plain depth) :
    (object members).Plain (depth + 1) := by
  constructor
  · exact every_object.mpr fun m h => (each m h).leaves
  · have all : membersFit depth members := by
      induction members with
      | nil => rfl
      | cons m rest ih =>
          simp only [membersFit, Bool.and_eq_true]
          exact ⟨(each m List.mem_cons_self).fits, ih fun k h => each k (List.mem_cons_of_mem m h)⟩
    cases members <;> simp_all [Json.fits]

theorem plain_listOf {α : Type} {f : α → Json} {as : List α}
    (each : ∀ a ∈ as, (f a).Plain depth) : (list (as.map f)).Plain (depth + 1) :=
  plain_list (by simpa using each)

@[simp] theorem plain_texts (texts : List String) : (textsJson texts).Plain (depth + 1) :=
  plain_listOf fun s _ => plain_str s

theorem plain_optional {α : Type} {f : α → Json} {a? : Option α}
    (each : ∀ a ∈ a?, (f a).Plain depth) : (optionalJson f a?).Plain depth := by
  cases a? with
  | none => exact plain_leaf (j := .null) rfl trivial depth
  | some a => exact each a rfl

theorem plain_pairs {α : Type} {f : α → Json} {ps : Pairs α}
    (each : ∀ p ∈ ps, (f p.2).Plain depth) : (pairsJson f ps).Plain (depth + 1) :=
  plain_object fun m h => by
    obtain ⟨p, member, rfl⟩ := List.mem_map.mp h
    exact each p member

@[simp] theorem plain_int? (n? : Option Int) : (optionalJson .int n?).Plain depth :=
  plain_optional fun n _ => plain_int n

@[simp] theorem plain_str? (s? : Option String) : (optionalJson .str s?).Plain depth :=
  plain_optional fun s _ => plain_str s

@[simp] theorem plain_textPairs (ps : Pairs String) : (pairsJson .str ps).Plain (depth + 1) :=
  plain_pairs fun p _ => plain_str p.2

end
end Json

/-! ### Records -/

open Json

section

variable {depth : Nat}

theorem StatusEffect.plain_toJson (e : StatusEffect) : e.toJson.Plain (depth + 2) :=
  plain_object (by simp)

/-- A bonus within the finite numbers is written as a number. -/
theorem Bonus.toJson_eq {b : Bonus} (formed : b.WellFormed) : b.toJson = .real b.number := by
  cases b with
  | whole n =>
      have finite : (Double.ofInt n).isFinite := formed
      rw [toJson, if_pos finite]
      rfl
  | real x => rfl

theorem StatBlock.plain_toJson {s : StatBlock} (formed : s.WellFormed) :
    s.toJson.Plain (depth + 4) := by
  have bonuses : (pairsJson Bonus.toJson s.permanentBonuses).Plain (depth + 3) :=
    plain_pairs fun b h => by
      have finite := formed.bonuses b h
      rw [Bonus.toJson_eq finite]
      exact plain_real finite
  have effects : (list (s.statusEffects.map StatusEffect.toJson)).Plain (depth + 3) :=
    plain_listOf fun e _ => e.plain_toJson
  exact plain_object (by simp [bonuses, effects])

theorem Emotion.plain_toJson (e : Emotion) : e.toJson.Plain (depth + 1) := plain_object (by simp)

theorem Flag.plain_toJson {f : Flag} (formed : f.WellFormed) : f.toJson.Plain depth := by
  cases f with
  | truth b => exact plain_bool b
  | whole n => exact plain_int n
  | real x => exact plain_real (formed x rfl)
  | text s => exact plain_str s

theorem Person.plain_toJson {p : Person} (formed : p.WellFormed) : p.toJson.Plain (depth + 5) := by
  have stats : (optionalJson StatBlock.toJson p.stats).Plain (depth + 4) :=
    plain_optional fun s h => StatBlock.plain_toJson (formed.stats s h)
  have flags : (pairsJson Flag.toJson p.memoryFlags).Plain (depth + 4) :=
    plain_pairs fun f h => Flag.plain_toJson (formed.flags f h)
  have emotion : (optionalJson Emotion.toJson p.emotion).Plain (depth + 4) :=
    plain_optional fun e _ => e.plain_toJson
  exact plain_object (by simp [stats, flags, emotion])

theorem Item.plain_toJson (i : Item) : i.toJson.Plain (depth + 2) := plain_object (by simp)

theorem Skill.plain_toJson (s : Skill) : s.toJson.Plain (depth + 1) := plain_object (by simp)

theorem LoreEntry.plain_toJson (e : LoreEntry) : e.toJson.Plain (depth + 2) :=
  plain_object (by simp)

theorem Faction.plain_toJson (f : Faction) : f.toJson.Plain (depth + 2) := plain_object (by simp)

theorem CombatRequest.plain_toJson (r : CombatRequest) : r.toJson.Plain (depth + 2) :=
  plain_object (by simp)

theorem Settings.plain_toJson (s : Settings) : s.toJson.Plain (depth + 2) :=
  plain_object (by simp)

theorem GameState.plain_toJson {s : GameState} (formed : s.WellFormed) :
    s.toJson.Plain (depth + 7) := by
  have people (circle : Circle) :
      (list ((s.people circle).map Person.toJson)).Plain (depth + 6) :=
    plain_listOf fun p h => Person.plain_toJson (formed.people circle p h)
  have items : (list (s.inventory.map Item.toJson)).Plain (depth + 6) :=
    plain_listOf fun i _ => i.plain_toJson
  have skills : (list (s.skills.map Skill.toJson)).Plain (depth + 6) :=
    plain_listOf fun k _ => k.plain_toJson
  have lore : (list (s.lore.map LoreEntry.toJson)).Plain (depth + 6) :=
    plain_listOf fun e _ => e.plain_toJson
  have factions : (list (s.factions.map Faction.toJson)).Plain (depth + 6) :=
    plain_listOf fun f _ => f.plain_toJson
  have request : (optionalJson CombatRequest.toJson s.pendingCombat).Plain (depth + 6) :=
    plain_optional fun r _ => r.plain_toJson
  have standing : (reputationJson s.reputation).Plain (depth + 6) := plain_object (by simp)
  have player : s.player.toJson.Plain (depth + 6) := StatBlock.plain_toJson formed.player
  have settings : s.settings.toJson.Plain (depth + 6) := s.settings.plain_toJson
  exact plain_object (by
    simp [members, people, items, skills, lore, factions, request, standing, player, settings])

end

/-! ### Saving and loading -/

theorem Bonus.toJson_reloaded {b : Bonus} (formed : b.WellFormed) :
    b.reloaded.toJson = b.toJson := (Bonus.toJson_eq formed).symm

theorem StatBlock.toJson_reloaded {s : StatBlock} (formed : s.WellFormed) :
    s.reloaded.toJson = s.toJson := by
  have bonuses : pairsJson Bonus.toJson s.reloaded.permanentBonuses =
      pairsJson Bonus.toJson s.permanentBonuses := by
    simp only [pairsJson, reloaded, List.map_map, object.injEq]
    refine List.map_congr_left fun b member => ?_
    simp [Bonus.toJson_reloaded (formed.bonuses b member)]
  rw [toJson, bonuses]
  rfl

theorem Person.toJson_reloaded {p : Person} (formed : p.WellFormed) :
    p.reloaded.toJson = p.toJson := by
  have stats : optionalJson StatBlock.toJson p.reloaded.stats =
      optionalJson StatBlock.toJson p.stats := by
    simp only [reloaded]
    cases known : p.stats with
    | none => rfl
    | some s => exact StatBlock.toJson_reloaded (formed.stats s known)
  rw [toJson, stats]
  rfl

namespace GameState

/-- What is read back is written as the state was. -/
theorem toJson_reloaded {s : GameState} (formed : s.WellFormed) :
    s.reloaded.toJson = s.toJson := by
  have player : s.reloaded.player.toJson = s.player.toJson :=
    StatBlock.toJson_reloaded formed.player
  have people (circle : Circle) : (s.reloaded.people circle).map Person.toJson =
      (s.people circle).map Person.toJson := by
    simp only [reloaded, GameState.people, Cast.get_ofFn, List.map_map]
    exact List.map_congr_left fun p h => Person.toJson_reloaded (formed.people circle p h)
  simp only [toJson, members, player, people]
  rfl

/-- A state that a record may hold is loaded again from its text, unless an integer in it has too
many digits. -/
theorem reload_eq {s : GameState} (formed : s.WellFormed) (short : s.toJson.ShortIntegers)
    (nextId : Nat) : s.reload nextId = (.ok s.reloaded, nextId) := by
  have plain : s.toJson.Plain maxDepth := plain_toJson formed
  have read : ofText? s.save = some s.toJson :=
    ofText?_spread (legible_of_plain plain.leaves short) plain.fits
  have gives := reads_toJson formed []
  simp only [reload, load, Shape.acceptText, read, Shape.accept, gives _]

end GameState
end Ascent
