import Ascent.Proofs.Reading
import Ascent.Tag.Written

/-!
Tags read back as they are written.

A reader of arguments stops where a value ends: at the quote that closes it, or, for a bare value,
at a blank, a comma or the end of the tag. So it never looks into a value, whatever that holds, and
what parts two arguments is passed over. The same goes for tags and the text between them.

Main exports: `isWord_of_isBlank`, `param_chars`, `readParams_writeParams`, `tag_chars`,
`findAll_text`.
-/

namespace Ascent

open Text

/-! ### Classes of characters -/

namespace Text

theorem inRanges_wordRanges_of_blank :
    ∀ r ∈ blankRanges, ∀ n ∈ List.range' r.1 (r.2 - r.1 + 1), inRanges wordRanges n = false := by
  decide +kernel

/-- No blank is a letter, a number or the underscore. -/
theorem isWord_of_isBlank {c : Char} (blank : isBlank c) : isWord c = false := by
  by_cases ascii : c.toNat < 128
  · have all : ∀ n < 128, isBlank (Char.ofNat n) → isWord (Char.ofNat n) = false := by decide
    rw [← Char.ofNat_toNat c] at blank ⊢
    exact all c.toNat ascii blank
  · rw [isBlank, if_neg ascii] at blank
    obtain ⟨r, known, within⟩ := List.any_eq_true.mp blank
    simp only [Bool.and_eq_true, decide_eq_true_eq] at within
    rw [isWord, if_neg ascii]
    refine inRanges_wordRanges_of_blank r known c.toNat (List.mem_range'_1.mpr ?_)
    omega

end Text

namespace Tag

theorem isKeyChar_of_isBlank {c : Char} (blank : isBlank c) : isKeyChar c = false := by
  have point : c ≠ '.' := by
    rintro rfl
    cases blank
  simp [isKeyChar, isWord_of_isBlank blank, point]

end Tag

/-! ### Values -/

namespace Quoting

variable {value : List Char}

theorem closing_not_mem {q : Quoting} (admitted : q.admits value) : ']' ∉ value := by
  simp only [admits, Bool.and_eq_true] at admitted
  simpa using admitted.1

theorem bare_admits (admitted : bare.admits value) :
    value ≠ [] ∧ (∀ c ∈ value, Tag.isBareChar c) ∧ value.head? ≠ some '"' ∧
      value.head? ≠ some '\'' := by
  have unclosed := closing_not_mem admitted
  simp only [admits, Bool.and_eq_true, Bool.not_eq_true', List.isEmpty_eq_false_iff,
    List.all_eq_true, Bool.or_eq_false_iff, decide_eq_false_iff_not, decide_eq_true_eq] at admitted
  obtain ⟨-, ⟨⟨nonempty, plain⟩, notDouble⟩, notSingle⟩ := admitted
  refine ⟨nonempty, fun c member => ?_, notDouble, notSingle⟩
  have closing : c ≠ ']' := ne_of_mem_of_not_mem member unclosed
  simp [Tag.isBareChar, plain c member, closing]

/-- A written value neither begins nor ends with a blank. -/
theorem write_solid {q : Quoting} (admitted : q.admits value) :
    ∃ c d, (q.write value).head? = some c ∧ (q.write value).getLast? = some d ∧
      isBlank c = false ∧ isBlank d = false := by
  cases q with
  | double => exact ⟨'"', '"', rfl, @List.getLast?_concat _ ('"' :: value) '"', rfl, rfl⟩
  | single => exact ⟨'\'', '\'', rfl, @List.getLast?_concat _ ('\'' :: value) '\'', rfl, rfl⟩
  | bare =>
      obtain ⟨nonempty, bare, -, -⟩ := bare_admits admitted
      have solid (c : Char) (member : c ∈ value) : isBlank c = false := by
        have plain := bare c member
        simp only [Tag.isBareChar, Bool.not_eq_true', Bool.or_eq_false_iff] at plain
        exact plain.1.1
      exact ⟨value.head nonempty, value.getLast nonempty, List.head?_eq_some_head nonempty,
        List.getLast?_eq_some_getLast nonempty, solid _ (List.head_mem nonempty),
        solid _ (List.getLast_mem nonempty)⟩

end Quoting

namespace Tag

section

variable {value rest : List Char}

/-- What may follow an argument: nothing that a bare value could go on with. -/
def EndsParam (rest : List Char) : Prop := ∀ c ∈ rest.head?, isBareChar c = false

theorem quotedValue_append (quote : Char) (inside : quote ∉ value) :
    quotedValue quote (quote :: (value ++ quote :: rest)) = some (value, value.length + 2) := by
  have all : ∀ c ∈ value, decide (c ≠ quote) := fun c member => by
    simpa using ne_of_mem_of_not_mem member inside
  have stop : ∀ c ∈ (quote :: rest).head?, decide (c ≠ quote) = false := by simp
  rw [quotedValue, takeWhile_append_of_stop all stop, dropWhile_append_of_stop all stop]
  simp

theorem quotedValue_of_head {quote : Char} {cs : List Char} (other : cs.head? ≠ some quote) :
    quotedValue quote cs = none := by
  cases cs with
  | nil => rfl
  | cons c cs =>
      have differs : c ≠ quote := fun same => other (congrArg some same)
      simp [quotedValue, differs]

theorem bareValue_append (nonempty : value ≠ []) (bare : ∀ c ∈ value, isBareChar c)
    (ends : EndsParam rest) : bareValue (value ++ rest) = some (value, value.length) := by
  simp [bareValue, takeWhile_append_of_stop bare ends, nonempty]

/-- A value reads back, whatever it holds. -/
theorem paramValue_write {q : Quoting} (admitted : q.admits value) (ends : EndsParam rest) :
    paramValue (q.write value ++ rest) = some (value, (q.write value).length) := by
  cases q with
  | double =>
      simp only [Quoting.admits, Bool.and_eq_true] at admitted
      have inside : '"' ∉ value := by simpa using admitted.2
      simp [paramValue, Quoting.write, quotedValue_append '"' inside]
  | single =>
      simp only [Quoting.admits, Bool.and_eq_true] at admitted
      have inside : '\'' ∉ value := by simpa using admitted.2
      have other : quotedValue '"' ('\'' :: (value ++ '\'' :: rest)) = none :=
        quotedValue_of_head (by simp)
      simp [paramValue, Quoting.write, other, quotedValue_append '\'' inside]
  | bare =>
      obtain ⟨nonempty, bare, notDouble, notSingle⟩ := Quoting.bare_admits admitted
      have head (quote : Char) (other : value.head? ≠ some quote) :
          quotedValue quote (value ++ rest) = none := by
        refine quotedValue_of_head ?_
        rwa [List.head?_append_of_ne_nil value nonempty]
      simp [paramValue, Quoting.write, head _ notDouble, head _ notSingle,
        bareValue_append nonempty bare ends]

end

/-! ### Arguments -/

theorem param_of_head {c : Char} (other : isKeyChar c = false) (rest : List Char) :
    param (c :: rest) = none := by
  unfold param
  dsimp only
  split <;> simp [other]

/-- An argument reads back, whatever it holds. -/
theorem param_chars (p : WrittenParam) {rest : List Char} (ends : EndsParam rest) :
    param (p.chars ++ rest) = some ((p.key, p.value), p.chars.length) := by
  have shape : p.chars ++ rest =
      p.key.toList ++ '=' :: (p.quoting.write p.value.toList ++ rest) := by
    simp [WrittenParam.chars]
  have value := paramValue_write p.admitted ends
  obtain ⟨c, -, first, -, solid, -⟩ := Quoting.write_solid p.admitted
  have head : ∀ d ∈ (p.quoting.write p.value.toList ++ rest).head?, isBlank d = false := by
    simp [List.head?_append, first, solid]
  have length : p.chars.length = p.key.toList.length + 1 +
      (p.quoting.write p.value.toList).length := by
    simp [WrittenParam.chars]
    omega
  rw [shape, length]
  generalize p.quoting.write p.value.toList ++ rest = after at value head ⊢
  have stop : ∀ c ∈ ('=' :: after).head?, isKeyChar c = false := by simp [isKeyChar, isWord]
  have sign : isBlank '=' = false := rfl
  have gap : after.takeWhile isBlank = [] := takeWhile_eq_nil_of_head head
  rw [param, takeWhile_append_of_stop p.plain stop, dropWhile_append_of_stop p.plain stop]
  simp [sign, gap, dropWhile_eq_self_of_head head, value, p.keyed]

theorem endsParam_gap (gap : Gap) (rest : List Char) : EndsParam (gap.chars ++ rest) := by
  intro c first
  have member : c ∈ gap.chars := by
    rw [List.head?_append_of_ne_nil _ gap.nonempty] at first
    exact List.mem_of_mem_head? first
  rcases gap.parting c member with blank | rfl
  · simp [isBareChar, blank]
  · rfl

theorem param_gap (gap : Gap) : ∀ c ∈ gap.chars, ∀ rest, param (c :: rest) = none := by
  intro c member rest
  rcases gap.parting c member with blank | rfl
  · exact param_of_head (isKeyChar_of_isBlank blank) rest
  · exact param_of_head rfl rest

theorem chars_ne_nil (p : WrittenParam) : p.chars ≠ [] := by
  simp [WrittenParam.chars]

/-- Arguments read back in their order. -/
theorem findAll_writeParams (ps : List (WrittenParam × Gap)) :
    param.findAll (writeParams ps) = ps.map fun (p, _) => (p.key, p.value) := by
  induction ps with
  | nil => rfl
  | cons first rest ih =>
      obtain ⟨p, gap⟩ := first
      cases rest with
      | nil =>
          have read : param (p.chars ++ []) = some ((p.key, p.value), p.chars.length) :=
            param_chars p (by simp [EndsParam])
          have found := Pattern.findAll_append_of_eq_some (chars_ne_nil p) read
          rw [List.append_nil] at found
          exact found
      | cons next rest =>
          rw [writeParams, Pattern.findAll_append_of_eq_some (chars_ne_nil p)
            (param_chars p (endsParam_gap gap _)),
            Pattern.findAll_append_of_eq_none _ (param_gap gap), ih]
          rfl

/-! ### Tags -/

theorem closing_not_mem_writeParams (ps : List (WrittenParam × Gap)) : ']' ∉ writeParams ps := by
  have inParam (p : WrittenParam) : ']' ∉ p.chars := by
    have key : ']' ∉ p.key.toList := fun member => by cases p.plain _ member
    have value : ']' ∉ p.quoting.write p.value.toList := by
      have unclosed := Quoting.closing_not_mem p.admitted
      cases p.quoting <;> simp [Quoting.write, unclosed]
    simp [WrittenParam.chars, key, value]
  have inGap (gap : Gap) : ']' ∉ gap.chars := fun member => by
    rcases gap.parting _ member with blank | comma
    · cases blank
    · cases comma
  induction ps with
  | nil => simp [writeParams]
  | cons first rest ih =>
      obtain ⟨p, gap⟩ := first
      cases rest with
      | nil => exact inParam p
      | cons next rest => simp [writeParams, inParam p, inGap gap, ih]

/-- An argument begins with its key and ends with its value, and neither does so with a blank. -/
theorem chars_solid (p : WrittenParam) : ∃ c d, p.chars.head? = some c ∧
    p.chars.getLast? = some d ∧ isBlank c = false ∧ isBlank d = false := by
  obtain ⟨-, d, -, last, -, solid⟩ := Quoting.write_solid p.admitted
  have keyed : p.key.toList ≠ [] := by simp [p.keyed]
  refine ⟨p.key.toList.head keyed, d, ?_, ?_, ?_, solid⟩
  · rw [WrittenParam.chars, List.head?_append_of_ne_nil _ keyed, List.head?_eq_some_head keyed]
  · simp [WrittenParam.chars, List.getLast?_append, List.getLast?_cons, last]
  · by_contra blank
    have plain := p.plain _ (List.head_mem keyed)
    rw [isKeyChar_of_isBlank (Bool.of_not_eq_false blank)] at plain
    cases plain

theorem writeParams_last {ps : List (WrittenParam × Gap)} (nonempty : ps ≠ []) :
    ∃ d, (writeParams ps).getLast? = some d ∧ isBlank d = false := by
  induction ps with
  | nil => exact absurd rfl nonempty
  | cons pair rest ih =>
      obtain ⟨p, gap⟩ := pair
      cases rest with
      | nil =>
          obtain ⟨-, d, -, last, -, solid⟩ := chars_solid p
          exact ⟨d, last, solid⟩
      | cons next rest =>
          obtain ⟨d, last, solid⟩ := ih (List.cons_ne_nil next rest)
          exact ⟨d, by simp [writeParams, List.getLast?_append, last], solid⟩

/-- Trimming takes nothing from arguments. -/
theorem trimChars_writeParams (ps : List (WrittenParam × Gap)) :
    trimChars (' ' :: writeParams ps) = writeParams ps := by
  have lead : trimChars (' ' :: writeParams ps) = trimChars (writeParams ps) := rfl
  rw [lead]
  cases ps with
  | nil => rfl
  | cons pair rest =>
      obtain ⟨c, -, first, -, solid, -⟩ := chars_solid pair.1
      obtain ⟨d, last, ending⟩ := writeParams_last (List.cons_ne_nil pair rest)
      have head : (writeParams (pair :: rest)).head? = some c := by
        cases rest <;> simp [writeParams, List.head?_append, first]
      exact trimWhere_eq_self (by simp [head, solid]) (by simp [last, ending])

theorem readParams_writeParams {ps : List (WrittenParam × Gap)}
    (distinct : (ps.map (·.1.key)).Nodup) :
    readParams (trimChars (' ' :: writeParams ps)) = ps.map fun (p, _) => (p.key, p.value) := by
  rw [trimChars_writeParams, readParams, findAll_writeParams]
  exact Pairs.ofList_of_nodup (by rwa [List.map_map])

/-- A tag reads back, whatever follows it. -/
theorem tag_chars (t : WrittenTag) (rest : List Char) :
    tag (t.chars ++ rest) = some (t.tag, t.chars.length) := by
  have shape : t.chars ++ rest =
      '[' :: (t.name.toList ++ ':' :: ((' ' :: writeParams t.params) ++ ']' :: rest)) := by
    simp [WrittenTag.chars]
  have colon (cs : List Char) : ∀ c ∈ (':' :: cs).head?, isWord c = false := by simp [isWord]
  have inside : ∀ c ∈ ' ' :: writeParams t.params, decide (c ≠ ']') := fun c member => by
    have unclosed : ']' ∉ ' ' :: writeParams t.params := by
      simp [closing_not_mem_writeParams]
    simpa using ne_of_mem_of_not_mem member unclosed
  have bracket : ∀ c ∈ (']' :: rest).head?, decide (c ≠ ']') = false := by simp
  have capital : upperChars t.name.toList = t.name.toList := by
    have same := congrArg String.toList t.capital
    rwa [upper, String.toList_ofList] at same
  have length : t.chars.length =
      t.name.toList.length + (' ' :: writeParams t.params).length + 3 := by
    simp [WrittenTag.chars]
    omega
  have raw : (t.chars ++ rest).take t.chars.length = t.chars := List.take_left
  rw [length, shape] at raw
  rw [shape, tag, takeWhile_append_of_stop t.word (colon _),
    dropWhile_append_of_stop t.word (colon _)]
  simp only [takeWhile_append_of_stop inside bracket, dropWhile_append_of_stop inside bracket,
    readParams_writeParams t.distinct, capital, raw, length]
  simp [t.named, WrittenTag.tag]

theorem tag_of_head {c : Char} (other : c ≠ '[') (rest : List Char) : tag (c :: rest) = none := by
  unfold tag
  split <;> simp_all

/-- All tags of a text are found, in their order, and read back as they are written. -/
theorem findAll_text (text : TaggedText) :
    findAll text.text.toList = text.tags.map fun (t, _) => t.tag := by
  obtain ⟨lead, tags⟩ := text
  have barren (filler : Filler) : ∀ c ∈ filler.chars, ∀ rest, tag (c :: rest) = none :=
    fun c member rest => tag_of_head (ne_of_mem_of_not_mem member filler.closed) rest
  rw [TaggedText.text, String.toList_ofList, findAll,
    Pattern.findAll_append_of_eq_none _ (barren lead)]
  dsimp only
  induction tags with
  | nil => rfl
  | cons first rest ih =>
      obtain ⟨t, filler⟩ := first
      have nonempty : t.chars ≠ [] := by simp [WrittenTag.chars]
      rw [List.flatMap_cons, List.map_cons, List.append_assoc,
        Pattern.findAll_append_of_eq_some nonempty (tag_chars t _),
        Pattern.findAll_append_of_eq_none _ (barren filler), ih]

theorem findAll_text_nested :
    findAll "Hush] [MEM_FLAG: npc='Mo \"Old\", b=1', flag=debt=[2] so.".toList =
      [⟨"MEM_FLAG", [("npc", "Mo \"Old\", b=1"), ("flag", "debt=[2")],
        "[MEM_FLAG: npc='Mo \"Old\", b=1', flag=debt=[2]"⟩] := by
  let quoted : WrittenParam :=
    ⟨"npc", "Mo \"Old\", b=1", .single, by decide, List.all_eq_true.mp (by decide), by decide⟩
  let bare : WrittenParam :=
    ⟨"flag", "debt=[2", .bare, by decide, List.all_eq_true.mp (by decide), by decide⟩
  let comma : Gap :=
    ⟨[',', ' '], by decide, List.forall_mem_cons.mpr ⟨.inr rfl, by simpa using by decide⟩⟩
  let told : WrittenTag :=
    ⟨"MEM_FLAG", [(quoted, comma), (bare, comma)], by decide, List.all_eq_true.mp (by decide),
      by decide, by decide⟩
  let text : TaggedText :=
    ⟨⟨"Hush] ".toList, by decide⟩, [(told, ⟨" so.".toList, by decide⟩)]⟩
  have written : text.text =
      "Hush] [MEM_FLAG: npc='Mo \"Old\", b=1', flag=debt=[2] so." := by decide
  have tags : text.tags.map (fun (t, _) => t.tag) =
      [⟨"MEM_FLAG", [("npc", "Mo \"Old\", b=1"), ("flag", "debt=[2")],
        "[MEM_FLAG: npc='Mo \"Old\", b=1', flag=debt=[2]"⟩] := by decide
  rw [← written, findAll_text, tags]

end Tag
end Ascent
