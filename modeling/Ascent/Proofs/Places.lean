import Ascent.Proofs.Marks
import Ascent.Proofs.Naming
import Mathlib.Data.List.Perm.Subperm
import Mathlib.Data.List.Sigma

/-!
Where the tags of a response are written.

Every tag that is read off a text is written at places of the text that no other one of its tags
takes, its own closing bracket among them. The tags of a response are read off two texts, the block
for them (or what is left of the response without thoughts and definitions) and the block of
definitions. Where these two stand apart no place is read twice; where one of them runs into the
other a tag is.

Main exports: `StandApart`, `StandApart.length_le_count`, `Block.Settled`, `DefinitionsApart`,
`tags_standApart`, `tags_of_nested_blocks_collide`.
-/

namespace Ascent

open Text

/-! ### Matches and what is left without them -/

namespace Text.Pattern

variable {α : Type} {p : Pattern α}

/-- The texts of the matches, one after another, stand in the text in that order. -/
theorem flatMap_findAll_sublist {text : α → List Char}
    (written : ∀ {cs : List Char} {a : α} {size : Nat}, p cs = some (a, size) →
      0 < size ∧ text a = cs.take size) (cs : List Char) :
    ((p.findAll cs).flatMap text).Sublist cs := by
  have after (n : Nat) : ((findFrom p n cs).flatMap text).Sublist (cs.drop n) := by
    induction cs generalizing n with
    | nil => simp [findFrom]
    | cons c rest ih =>
        cases n with
        | succ n => exact ih n
        | zero =>
            rw [findFrom, List.drop_zero]
            split
            · next a size found =>
                obtain ⟨positive, taken⟩ := written found
                obtain ⟨size, rfl⟩ := Nat.exists_eq_succ_of_ne_zero positive.ne'
                rw [List.flatMap_cons, taken]
                conv_rhs => rw [← List.take_append_drop (size + 1) (c :: rest)]
                exact (List.Sublist.refl _).append (ih size)
            · exact (ih 0).cons c
  exact after 0

/-- What is found in a text is found at the head of what follows some place of it. -/
theorem exists_of_mem_findAll {cs : List Char} {a : α} (member : a ∈ p.findAll cs) :
    ∃ rest size, p rest = some (a, size) := by
  suffices after : ∀ n, a ∈ findFrom p n cs → ∃ rest size, p rest = some (a, size) from
    after 0 member
  clear member
  induction cs with
  | nil => intro _ member; cases member
  | cons c rest ih =>
      intro n member
      cases n with
      | succ n => exact ih n member
      | zero =>
          rw [findFrom] at member
          split at member
          · next size found =>
              rcases List.mem_cons.mp member with rfl | later
              · exact ⟨_, _, found⟩
              · exact ih (size - 1) later
          · exact ih 0 member

theorem erase_sublist (p : Pattern α) (cs : List Char) : (p.erase cs).Sublist cs := by
  have after (n : Nat) : (eraseFrom p n cs).Sublist cs := by
    induction cs generalizing n with
    | nil => simp [eraseFrom]
    | cons c rest ih =>
        cases n with
        | succ n => exact (ih n).cons c
        | zero =>
            rw [eraseFrom]
            split
            · next size _ => exact (ih (size - 1)).cons c
            · exact (ih 0).cons_cons c
  exact after 0

end Text.Pattern

/-! ### The places of tags -/

/-- What is written in a list of pieces one after another can be taken apart into the pieces. -/
theorem Text.exists_pieces {α β : Type} {f : α → β} {pieces : List (List β)} {whole : List α}
    (joined : whole.map f = pieces.flatten) :
    ∃ parts : List (List α), parts.flatten = whole ∧ parts.map (·.map f) = pieces := by
  induction pieces generalizing whole with
  | nil => exact ⟨[], (List.map_eq_nil_iff.mp joined).symm, rfl⟩
  | cons piece pieces ih =>
      obtain ⟨first, rest, rfl, rfl, later⟩ := List.map_eq_append_iff.mp joined
      obtain ⟨parts, rfl, rfl⟩ := ih later
      exact ⟨first :: parts, rfl, rfl⟩

namespace Tag

/-- A tag takes the characters that it is written with, a closing bracket among them. -/
theorem of_tag {cs : List Char} {t : Tag} {size : Nat} (found : tag cs = some (t, size)) :
    0 < size ∧ t.raw.toList = cs.take size ∧ ']' ∈ t.raw.toList := by
  rw [tag.eq_def] at found
  split at found
  · next rest =>
      dsimp only at found
      split at found
      · next body colon =>
          split at found
          · cases found
          · next closed =>
              cases found
              simp only [Bool.or_eq_true, not_or, List.isEmpty_iff] at closed
              obtain ⟨d, tail, bracket⟩ := List.exists_cons_of_ne_nil closed.2
              obtain rfl : d = ']' := by
                have head := List.head?_dropWhile_not (· ≠ ']') body
                rw [bracket] at head
                simpa using head
              have whole : '[' :: rest =
                  ('[' :: (rest.takeWhile isWord ++ ':' :: body.takeWhile (· ≠ ']'))) ++
                    ']' :: tail := by
                rw [← bracket, List.cons_append, List.append_assoc, List.cons_append,
                  List.takeWhile_append_dropWhile, ← colon, List.takeWhile_append_dropWhile]
              have size : (rest.takeWhile isWord).length + (body.takeWhile (· ≠ ']')).length + 3 =
                  ('[' :: (rest.takeWhile isWord ++ ':' :: body.takeWhile (· ≠ ']'))).length +
                    1 := by
                simp only [List.length_cons, List.length_append]
                omega
              refine ⟨Nat.succ_pos _, String.toList_ofList .., ?_⟩
              rw [String.toList_ofList, size, whole, List.take_length_add_append]
              simp
      · cases found
  · cases found

/-- The texts of tags, one after another. -/
def written (tags : List Tag) : List Char := tags.flatMap (·.raw.toList)

theorem written_findAll_sublist (cs : List Char) : (written (findAll cs)).Sublist cs :=
  Pattern.flatMap_findAll_sublist (fun found => ⟨(of_tag found).1, (of_tag found).2.1⟩) cs

/-- Tags are written at places of a text that are all different: each has the characters of its
text there, in their order, and no character of the text counts twice. -/
def StandApart (tags : List Tag) (cs : List Char) : Prop :=
  ∃ places : List (List (Char × Nat)),
    places.map (·.map Prod.fst) = tags.map (·.raw.toList) ∧
      (∀ place ∈ places, place.Sublist cs.zipIdx) ∧ places.flatten.Nodup

/-- Tags that are written around a piece of a text stand apart from those that are written in it. -/
theorem standApart_around {first second : List Tag} {before piece after : List Char}
    (around : (written first).Sublist (before ++ after))
    (inside : (written second).Sublist piece) :
    StandApart (first ++ second) (before ++ (piece ++ after)) := by
  have places : ((before ++ (piece ++ after)).zipIdx.map Prod.fst) =
      before ++ (piece ++ after) := List.zipIdx_map_fst 0 _
  obtain ⟨u, rest, split, rfl, whole⟩ := List.map_eq_append_iff.mp places
  obtain ⟨m, v, rfl, rfl, rfl⟩ := List.map_eq_append_iff.mp whole
  rw [← List.map_append] at around
  obtain ⟨outer, outside, reads⟩ := List.sublist_map_iff.mp around
  obtain ⟨inner, within, reads'⟩ := List.sublist_map_iff.mp inside
  obtain ⟨parts, rfl, same⟩ := exists_pieces reads.symm
  obtain ⟨parts', rfl, same'⟩ := exists_pieces reads'.symm
  have distinct : (u ++ (m ++ v)).Nodup := by
    rw [← split]
    exact List.Nodup.of_map Prod.snd (List.nodup_zipIdx_map_snd _)
  have apart : (u ++ v ++ m).Nodup := by
    rw [List.append_assoc]
    exact (List.perm_append_comm.append_left u).nodup_iff.mp distinct
  refine ⟨parts ++ parts', by rw [List.map_append, List.map_append, same, same'], ?_, ?_⟩
  · intro place member
    rw [split]
    rcases List.mem_append.mp member with known | known
    · exact ((List.sublist_flatten_of_mem known).trans outside).trans
        ((List.Sublist.refl u).append (List.sublist_append_right m v))
    · exact ((List.sublist_flatten_of_mem known).trans within).trans
        ((List.sublist_append_left m v).trans (List.sublist_append_right u _))
  · rw [List.flatten_append]
    exact (outside.append within).nodup apart

/-- There are no more tags that stand apart in a text than closing brackets. -/
theorem StandApart.length_le_count {tags : List Tag} {cs : List Char}
    (apart : StandApart tags cs) (closed : ∀ t ∈ tags, ']' ∈ t.raw.toList) :
    tags.length ≤ cs.count ']' := by
  obtain ⟨places, reads, within, distinct⟩ := apart
  have inside : places.flatten.Subperm cs.zipIdx :=
    distinct.subperm fun place member => by
      obtain ⟨part, known, member⟩ := List.mem_flatten.mp member
      exact (within part known).subset member
  have counted := inside.countP_le fun place => place.1 == ']'
  have brackets (placed : List (Char × Nat)) :
      placed.countP (fun place => place.1 == ']') = (placed.map Prod.fst).count ']' := by
    rw [List.count, List.countP_map]
    rfl
  rw [brackets, brackets, List.zipIdx_map_fst, List.map_flatten, reads] at counted
  refine le_trans ?_ counted
  clear counted reads
  induction tags with
  | nil => exact Nat.zero_le _
  | cons t tags ih =>
      have own : 0 < t.raw.toList.count ']' := List.count_pos_iff.mpr (closed t List.mem_cons_self)
      have others := ih fun u member => closed u (List.mem_cons_of_mem t member)
      rw [List.map_cons, List.flatten_cons, List.count_append, List.length_cons]
      omega

theorem closed_of_mem_findAll {cs : List Char} {t : Tag} (member : t ∈ findAll cs) :
    ']' ∈ t.raw.toList := by
  obtain ⟨_, _, found⟩ := Pattern.exists_of_mem_findAll member
  exact (of_tag found).2.2

/-- The tags of a part of a text, or of what is left of it, stand apart in the text. -/
theorem standApart_of_sublist {tags : List Tag} {cs : List Char}
    (stands : (written tags).Sublist cs) : StandApart tags cs := by
  have around : (written tags).Sublist (cs ++ []) := by simpa using stands
  have alone : StandApart (tags ++ []) (cs ++ ([] ++ [])) :=
    standApart_around around (List.Sublist.refl [])
  simpa using alone

end Tag

/-! ### Texts without their blocks -/

namespace Block

/-- Every block of the kind that opens in the text is closed in it. -/
inductive Settled (b : Block) : List Char → Prop
  | unopened {cs : List Char} : b.opensIn cs = false → Settled b cs
  | closed {cs before after content rest : List Char} :
      cutWord? b.opening cs = some (before, after) →
      cutWord? b.closing after = some (content, rest) → Settled b rest → Settled b cs

/-- A block that settles is not put out together with anything that follows. -/
theorem Settled.erase_append {b : Block} {cs rest : List Char} (settled : b.Settled cs)
    (atMark : AtMark rest) :
    b.pattern.erase (cs ++ rest) = b.pattern.erase cs ++ b.pattern.erase rest := by
  induction settled with
  | unopened not =>
      have fresh := cut_of_not_opensIn not
      have alone : b.pattern.erase (_ ++ []) = _ ++ b.pattern.erase [] :=
        erase_append_of_unopened fresh fun _ none => by cases none
      rw [List.append_nil] at alone
      rw [erase_append_of_unopened fresh atMark, alone, List.append_assoc]
      rfl
  | @closed cs before after content later opened closed _ ih =>
      have opens := b.mark_opening.cutWord?_append_of_some opened atMark
      have closes := b.mark_closing.cutWord?_append_of_some closed atMark
      rw [erase_of_cut opens closes, erase_of_cut opened closed, ih, List.append_assoc]

/-- What stands after a block is the end of what stands around it, and less than the whole. -/
theorem suffix_of_cut {b : Block} {cs before after content rest : List Char}
    (opened : cutWord? b.opening cs = some (before, after))
    (closed : cutWord? b.closing after = some (content, rest)) :
    (before ++ rest).Sublist cs ∧ rest.length < cs.length := by
  obtain ⟨m, rfl, written, -⟩ := b.mark_opening.of_cutWord? opened
  obtain ⟨n, rfl, -, -⟩ := b.mark_closing.of_cutWord? closed
  have positive : 0 < m.length := by
    rw [List.length_pos_iff]
    rintro rfl
    exact b.mark_opening.ne_nil written.symm
  refine ⟨(List.Sublist.refl before).append ?_, ?_⟩
  · exact ((List.sublist_append_right n rest).trans (List.sublist_append_right content _)).trans
      (List.sublist_append_right m _)
  · simp only [List.length_append]
    omega

section

variable {b : Block} {m content n : List Char} (opens : m.map plainForm = b.opening)
  (closes : n.map plainForm = b.closing) (first : cutWord? b.closing content = none)

include opens closes first

/-- A block that opens before another one of its kind, and is not closed before it, runs into it and
ends with it. -/
theorem erase_of_unclosed {before after u v : List Char}
    (opened : cutWord? b.opening before = some (u, v)) (unclosed : cutWord? b.closing v = none) :
    b.pattern.erase (before ++ (m ++ (content ++ (n ++ after)))) = u ++ b.pattern.erase after := by
  have atMark := b.mark_opening.atMark opens (content ++ (n ++ after))
  have foreign := closing_foreign b
  rw [← opens] at foreign
  have closed : cutWord? b.closing (v ++ (m ++ (content ++ (n ++ after)))) =
      some (v ++ (m ++ content), after) := by
    rw [b.mark_closing.cutWord?_append_of_none unclosed atMark,
      cutWord?_of_foreign b.mark_closing.plain foreign,
      b.mark_closing.cutWord?_append_of_none first (b.mark_closing.atMark closes after),
      b.mark_closing.cutWord?_written closes]
    simp
  exact erase_of_cut (b.mark_opening.cutWord?_append_of_some opened atMark) closed

/-- A block that is written in a text is put out whole, with whatever runs into it. -/
theorem erase_around (before after : List Char) :
    (b.pattern.erase (before ++ (m ++ (content ++ (n ++ after))))).Sublist (before ++ after) := by
  have atMark := b.mark_opening.atMark opens (content ++ (n ++ after))
  induction long : before.length using Nat.strongRecOn generalizing before with
  | ind size ih =>
  cases found : cutWord? b.opening before with
  | none =>
      have opened := b.mark_opening.cutWord?_written opens (content ++ (n ++ after))
      have closed : cutWord? b.closing (content ++ (n ++ after)) = some (content, after) := by
        rw [b.mark_closing.cutWord?_append_of_none first (b.mark_closing.atMark closes after),
          b.mark_closing.cutWord?_written closes]
        simp
      rw [erase_append_of_unopened found atMark, erase_of_cut opened closed]
      exact (List.Sublist.refl before).append (Pattern.erase_sublist _ after)
  | some cut =>
      obtain ⟨u, v⟩ := cut
      cases ended : cutWord? b.closing v with
      | none =>
          obtain ⟨w, rfl, -, -⟩ := b.mark_opening.of_cutWord? found
          rw [erase_of_unclosed opens closes first found ended]
          exact (List.sublist_append_left u _).append (Pattern.erase_sublist _ after)
      | some cut' =>
          obtain ⟨k, rest⟩ := cut'
          obtain ⟨less, shorter⟩ := suffix_of_cut found ended
          have later := ih rest.length (long ▸ shorter) rest rfl
          rw [erase_of_cut (b.mark_opening.cutWord?_append_of_some found atMark)
            (b.mark_closing.cutWord?_append_of_some ended atMark)]
          refine ((List.Sublist.refl u).append later).trans ?_
          rw [← List.append_assoc]
          exact less.append_right after

end

theorem first?_sublist {b : Block} {cs content : List Char}
    (found : b.pattern.first? cs = some content) : content.Sublist cs := by
  rw [first?_eq] at found
  obtain ⟨⟨before, after⟩, opened, found⟩ := Option.bind_eq_some_iff.mp found
  obtain ⟨⟨piece, rest⟩, closed, rfl⟩ := Option.map_eq_some_iff.mp found
  obtain ⟨m, rfl, -, -⟩ := b.mark_opening.of_cutWord? opened
  obtain ⟨n, rfl, -, -⟩ := b.mark_closing.of_cutWord? closed
  exact ((List.sublist_append_left piece (n ++ rest)).trans (List.sublist_append_right m _)).trans
    (List.sublist_append_right before _)

theorem content?_sublist {b : Block} {cs content : List Char}
    (found : b.content? cs = some content) : content.Sublist cs := by
  obtain ⟨whole, first, rfl⟩ := Option.map_eq_some_iff.mp found
  exact (trimWhere_sublist whole).trans (first?_sublist first)

end Block

/-! ### The tags of a response -/

namespace Response

/-- The block of definitions and the text that tags are looked for in first do not run into each
other: the block of tags, if there is one, is closed before the block of definitions or opens after
it; if there is none, every thought that opens before the block of definitions is closed before it,
and none opens in it. -/
structure DefinitionsApart (cs : List Char) : Prop where
  clear {before after content rest : List Char} :
    cutWord? Block.definitions.opening cs = some (before, after) →
    cutWord? Block.definitions.closing after = some (content, rest) →
    if (Block.tags.content? cs).isSome then Block.tags.KeepsClear before content
    else Block.thinking.Settled before ∧ Block.thinking.opensIn content = false

theorem tagText_sublist (cs : List Char) : (tagText cs).Sublist cs := by
  rw [tagText]
  cases found : Block.tags.content? cs with
  | some content => exact Block.content?_sublist found
  | none => exact (Pattern.erase_sublist _ _).trans (Pattern.erase_sublist _ cs)

/-- Where the definitions are apart, the text that tags are looked for in first is written around
their block. -/
theorem tagText_around {before m content n rest : List Char}
    (opens : m.map plainForm = Block.definitions.opening)
    (closes : n.map plainForm = Block.definitions.closing)
    (first : cutWord? Block.definitions.closing content = none)
    (apart : if (Block.tags.content? (before ++ (m ++ (content ++ (n ++ rest))))).isSome
      then Block.tags.KeepsClear before content
      else Block.thinking.Settled before ∧ Block.thinking.opensIn content = false) :
    (tagText (before ++ (m ++ (content ++ (n ++ rest))))).Sublist (before ++ rest) := by
  rw [tagText]
  cases found : Block.tags.content? (before ++ (m ++ (content ++ (n ++ rest)))) with
  | some inner =>
      rw [found, Option.isSome_some, if_pos rfl] at apart
      obtain ⟨whole, stands, rfl⟩ := Option.map_eq_some_iff.mp found
      rw [Block.first?_around (by decide) opens closes apart] at stands
      refine (trimWhere_sublist whole).trans ?_
      split at stands
      · exact (Block.first?_sublist stands).trans (List.sublist_append_left before rest)
      · exact (Block.first?_sublist stands).trans (List.sublist_append_right before rest)
  | none =>
      rw [found, Option.isSome_none, if_neg Bool.false_ne_true] at apart
      have foreign := Block.opening_foreign (b := .thinking) (d := .definitions) (by decide)
      rw [← opens, ← closes] at foreign
      have unthought : Block.thinking.pattern.erase (before ++ (m ++ (content ++ (n ++ rest)))) =
          Block.thinking.pattern.erase before ++ (m ++ (content ++ (n ++
            Block.thinking.pattern.erase rest))) := by
        rw [apart.1.erase_append (Block.definitions.mark_opening.atMark opens _),
          Block.erase_append_of_foreign foreign.1,
          Block.erase_append_of_unopened (Block.cut_of_not_opensIn apart.2)
            (Block.definitions.mark_closing.atMark closes rest),
          Block.erase_append_of_foreign foreign.2]
      change (Block.definitions.pattern.erase (Block.thinking.pattern.erase _)).Sublist _
      rw [unthought]
      exact (Block.erase_around opens closes first _ _).trans
        ((Pattern.erase_sublist _ before).append (Pattern.erase_sublist _ rest))

/-- Where the definitions are apart, the tags read outside of their block and those read in it stand
apart together. -/
theorem standApart_of_definitionsApart {cs : List Char} (apart : DefinitionsApart cs) :
    Tag.StandApart (tagsOf cs) cs := by
  rw [tagsOf]
  cases found : Block.definitions.content? cs with
  | none =>
      have only := Tag.standApart_of_sublist
        ((Tag.written_findAll_sublist _).trans (tagText_sublist cs))
      simpa [Tag.findAll, Pattern.findAll, Pattern.findFrom] using only
  | some content =>
      obtain ⟨piece, stands, rfl⟩ := Option.map_eq_some_iff.mp found
      rw [Block.first?_eq] at stands
      obtain ⟨⟨before, after⟩, opened, stands⟩ := Option.bind_eq_some_iff.mp stands
      obtain ⟨⟨piece, rest⟩, ended, rfl⟩ := Option.map_eq_some_iff.mp stands
      have around := apart.clear opened ended
      obtain ⟨m, split, opens, -⟩ := Block.definitions.mark_opening.of_cutWord? opened
      obtain ⟨n, rfl, closes, fresh⟩ := Block.definitions.mark_closing.of_cutWord? ended
      rw [split] at around ⊢
      have outside := (Tag.written_findAll_sublist _).trans
        (tagText_around opens closes fresh around)
      have inside := (Tag.written_findAll_sublist (trimChars piece)).trans
        ((trimWhere_sublist piece).trans
          ((List.sublist_append_left piece n).trans (List.sublist_append_right m _)))
      have both := Tag.standApart_around outside inside
      simpa only [List.append_assoc, Option.getD_some] using both

/-- The tags of the block for them, or of the whole text, stand apart in the response, and so do the
tags of the definitions; so a response has at most twice as many tags as closing brackets. Where the
definitions are apart, no place of the response is read twice. -/
theorem tags_standApart (raw : String) :
    (∃ first second, (read raw).tags = first ++ second ∧ Tag.StandApart first raw.toList ∧
        Tag.StandApart second raw.toList) ∧
      (read raw).tags.length ≤ 2 * raw.toList.count ']' ∧
      (DefinitionsApart raw.toList →
        Tag.StandApart (read raw).tags raw.toList ∧
          (read raw).tags.length ≤ raw.toList.count ']') := by
  have read_tags : (read raw).tags = tagsOf raw.toList := rfl
  rw [read_tags]
  generalize raw.toList = cs
  have first : Tag.StandApart (Tag.findAll (tagText cs)) cs :=
    Tag.standApart_of_sublist ((Tag.written_findAll_sublist _).trans (tagText_sublist cs))
  have second : Tag.StandApart (Tag.findAll ((Block.definitions.content? cs).getD [])) cs := by
    refine Tag.standApart_of_sublist ((Tag.written_findAll_sublist _).trans ?_)
    cases found : Block.definitions.content? cs with
    | none => exact List.nil_sublist cs
    | some content => exact Block.content?_sublist found
  refine ⟨⟨_, _, rfl, first, second⟩, ?_, fun apart => ?_⟩
  · have few := first.length_le_count fun t => Tag.closed_of_mem_findAll
    have few' := second.length_le_count fun t => Tag.closed_of_mem_findAll
    rw [tagsOf, List.length_append]
    omega
  · have closed : ∀ t ∈ tagsOf cs, ']' ∈ t.raw.toList := fun t member =>
      (List.mem_append.mp member).elim Tag.closed_of_mem_findAll Tag.closed_of_mem_findAll
    have whole := standApart_of_definitionsApart apart
    exact ⟨whole, whole.length_le_count closed⟩

/-- Tags before and after the definitions, and those in them, are all read once. -/
theorem tags_standApart_apart :
    let raw := "<thinking>Rain?</thinking>Rain. [TIME_PASS: duration=short] <entity_definitions>" ++
      "[ENTITY_DEF: name=Moss]</entity_definitions> [ITEM_ADD: name=Moss]"
    let tags := (read raw).tags
    DefinitionsApart raw.toList ∧ Tag.StandApart tags raw.toList ∧
      tags.length ≤ raw.toList.count ']' ∧
      tags.map Tag.name = ["TIME_PASS", "ITEM_ADD", "ENTITY_DEF"] := by
  intro raw tags
  have opened : cutWord? Block.definitions.opening raw.toList =
      some ("<thinking>Rain?</thinking>Rain. [TIME_PASS: duration=short] ".toList,
        "[ENTITY_DEF: name=Moss]</entity_definitions> [ITEM_ADD: name=Moss]".toList) := by
    decide +kernel
  have closed : cutWord? Block.definitions.closing
      "[ENTITY_DEF: name=Moss]</entity_definitions> [ITEM_ADD: name=Moss]".toList =
        some ("[ENTITY_DEF: name=Moss]".toList, " [ITEM_ADD: name=Moss]".toList) := by
    decide +kernel
  have unmarked : (Block.tags.content? raw.toList).isSome = false := by decide +kernel
  have thought : Block.thinking.Settled
      "<thinking>Rain?</thinking>Rain. [TIME_PASS: duration=short] ".toList := by
    have opens : cutWord? Block.thinking.opening
        "<thinking>Rain?</thinking>Rain. [TIME_PASS: duration=short] ".toList =
          some ([], "Rain?</thinking>Rain. [TIME_PASS: duration=short] ".toList) := by
      decide +kernel
    have closes : cutWord? Block.thinking.closing
        "Rain?</thinking>Rain. [TIME_PASS: duration=short] ".toList =
          some ("Rain?".toList, "Rain. [TIME_PASS: duration=short] ".toList) := by
      decide +kernel
    exact .closed opens closes (.unopened (by decide +kernel))
  have undefined : Block.thinking.opensIn "[ENTITY_DEF: name=Moss]".toList = false := by
    decide +kernel
  have apart : DefinitionsApart raw.toList := by
    refine ⟨fun opens closes => ?_⟩
    have cut := Prod.mk.inj (Option.some.inj (opened.symm.trans opens))
    rw [← cut.2] at closes
    have cut' := Prod.mk.inj (Option.some.inj (closed.symm.trans closes))
    rw [unmarked, if_neg Bool.false_ne_true, ← cut.1, ← cut'.1]
    exact ⟨thought, undefined⟩
  have once := (tags_standApart raw).2.2 apart
  have names : tags.map Tag.name = ["TIME_PASS", "ITEM_ADD", "ENTITY_DEF"] := by decide +kernel
  exact ⟨apart, once.1, once.2, names⟩

/-- A tag of definitions that stand in the block of tags is read twice. -/
theorem tags_of_nested_blocks_collide :
    let raw := "<data_tags><entity_definitions>[ITEM_ADD: name=Sword]</entity_definitions>" ++
      "</data_tags>"
    (read raw).tags.map Tag.raw = ["[ITEM_ADD: name=Sword]", "[ITEM_ADD: name=Sword]"] ∧
      ¬ (read raw).tags.length ≤ raw.toList.count ']' := by
  decide +kernel

end Response
end Ascent
