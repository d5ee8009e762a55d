import SchemaLedger.Proofs.Tag.Accumulation
import SchemaLedger.Proofs.Tag.Meaning
import SchemaLedger.Tag.Printer

/-!
# Printing a set and reading it back

A set that has been read line by line is printed as one text. Reading this text gives the same set
unless quotes in bare values get in the way. A value that holds a quote cannot be printed in quotes.
And where such values leave an odd number of quotes behind them in a group, the quotes around the
next value end quotes instead of starting them, so that brackets in this value count.
-/

namespace SchemaLedger

open Tag

namespace Tag

/-- How many brackets are open behind the text if so many are open before it, unless one is closed
that is not open. -/
def openBehind : Nat → List Char → Option Nat
  | depth, [] => some depth
  | depth, c :: rest =>
    if c = '(' then openBehind (depth + 1) rest
    else if c = ')' then
      match depth with
      | 0 => none
      | depth + 1 => openBehind depth rest
    else openBehind depth rest

/-- The values that stand behind an odd number of quotes in values, one after the other. The flag
tells whether the number is odd at the start. -/
def exposed : Bool → List (String × Detail) → List Char
  | _, [] => []
  | odd, p :: rest =>
    (if odd then p.2.text.toList else []) ++
      exposed (odd ^^ decide (Odd (p.2.text.toList.count '"'))) rest

end Tag

/-- The value is not printed in quotes if it holds one. -/
def Detail.IsClear (text : String) : Prop := '"' ∈ text.toList → needsQuotes text = false

/-- Quotes in values do not get in the way: where values of a group are printed outside of quotes,
their brackets belong together. -/
def Annotation.IsClear : Annotation → Prop
  | flag => True
  | value text => Detail.IsClear text
  | group _ details =>
    (∀ p ∈ details.entries, Detail.IsClear p.2.text) ∧
      openBehind 0 (exposed false details.entries) = some 0

instance (text : String) : Decidable (Detail.IsClear text) :=
  inferInstanceAs (Decidable ('"' ∈ text.toList → Detail.needsQuotes text = false))

instance : (a : Annotation) → Decidable a.IsClear
  | .flag => .isTrue trivial
  | .value text => inferInstanceAs (Decidable (Detail.IsClear text))
  | .group _ _ => inferInstanceAs (Decidable (_ ∧ _))

namespace Annotations

variable {allowed lines : List String} {set set' : Annotations} {remarks : List Remark}
variable {name text : String} {detail : Detail} {details : KeyMap Detail}
variable {e : String × Annotation}

/-- Reads one line after the other into a set that is empty at first. -/
def readEach (allowed : List String) (lines : List String) : Except ModelError Annotations :=
  lines.foldlM (fun set line => readInto allowed line set) .empty

/-- Lines are accepted if a set can be made of the remarks on all of them. -/
theorem readEach_eq_ok_iff (names : AreNames allowed) :
    readEach allowed lines = .ok set ↔
      ∃ each, List.Forall₂ IsCutInto lines each ∧ IsMadeOf allowed each.flatten set := by
  have all (lines : List String) {set₀ : Annotations} {remarks : List Remark}
      (h : IsMadeOf allowed remarks set₀) :
      lines.foldlM (fun set line => readInto allowed line set) set₀ = .ok set ↔
        ∃ each, List.Forall₂ IsCutInto lines each ∧
          IsMadeOf allowed (remarks ++ each.flatten) set := by
    induction lines generalizing set₀ remarks with
    | nil =>
        simp only [List.foldlM_nil, List.forall₂_nil_left_iff, exists_eq_left, List.flatten_nil,
          List.append_nil, except_pure_eq_ok]
        exact ⟨fun same => same ▸ h, fun made => h.made.symm.trans made.made⟩
    | cons line lines ih =>
        rw [List.foldlM_cons, except_bind_eq_ok]
        constructor
        · rintro ⟨set₁, first, rest⟩
          obtain ⟨remarks', cut, made⟩ := (h.readInto_eq_ok_iff names).mp first
          obtain ⟨each, others, made⟩ := (ih made).mp rest
          rw [List.append_assoc] at made
          exact ⟨remarks' :: each, .cons cut others, made⟩
        · rintro ⟨_, _ | ⟨cut, others⟩, made⟩
          rw [List.flatten_cons, ← List.append_assoc] at made
          have first := made.of_append
          exact ⟨_, (h.readInto_eq_ok_iff names).mpr ⟨_, cut, first⟩,
            (ih first).mpr ⟨_, others, made⟩⟩
  exact all lines (isMadeOf_empty allowed)

/-- A set that has been read line by line is made of the remarks on these lines. -/
theorem exists_isMadeOf (names : AreNames allowed) (run : readEach allowed lines = .ok set) :
    ∃ remarks, IsMadeOf allowed remarks set := by
  obtain ⟨each, -, made⟩ := (readEach_eq_ok_iff names).mp run
  exact ⟨each.flatten, made⟩

/-! ### The text spells the set -/

theorem toList_printValue_of_quoted (h : Detail.needsQuotes text = true) :
    (Detail.printValue name text).toList =
      name.toList ++ ([] ++ '=' :: ([] ++ ('"' :: (text.toList ++ ['"'])))) := by
  simp [Detail.printValue, h, toString]

theorem toList_printValue_of_bare (h : Detail.needsQuotes text = false) :
    (Detail.printValue name text).toList = name.toList ++ ([] ++ '=' :: ([] ++ text.toList)) := by
  simp [Detail.printValue, h, toString]

theorem of_not_needsQuotes (h : Detail.needsQuotes text = false) :
    text.toList ≠ [] ∧ IsUnbroken text.toList ∧ HasNoBracket text.toList := by
  simp only [Detail.needsQuotes, Bool.or_eq_false_iff, List.any_eq_false, Bool.or_eq_true,
    decide_eq_true_eq, not_or, Bool.not_eq_true, List.isEmpty_eq_false_iff] at h
  refine ⟨h.1, fun c hc => ?_, fun c hc => ?_⟩
  all_goals obtain ⟨⟨⟨⟨apart, _⟩, _⟩, opens⟩, closes⟩ := h.2 c hc
  · exact apart
  · simp [opens, closes]

/-- A detail is printed as it can be written. -/
theorem spellsPlain_print (detail : Detail) (tag : IsTagName name) (cut : IsCutValue detail.text)
    (clear : Detail.IsClear detail.text) :
    SpellsPlain false (name, detail) (detail.print name).toList := by
  cases detail with
  | flag => exact .flag (spellsName_self tag)
  | value text =>
      simp only [Detail.text] at cut clear
      rw [Detail.print]
      cases quoted : Detail.needsQuotes text with
      | true =>
          rw [toList_printValue_of_quoted quoted]
          refine .value (spellsName_self tag) isBlankRun_nil (.inl rfl) isBlankRun_nil
            (.quoted fun held => ?_)
          exact absurd (clear held) (by simp [quoted])
      | false =>
          rw [toList_printValue_of_bare quoted]
          obtain ⟨some_there, unbroken, -⟩ := of_not_needsQuotes quoted
          refine .value (spellsName_self tag) isBlankRun_nil (.inl rfl) isBlankRun_nil
            (.bare some_there unbroken (fun starts => ?_) fun inside => absurd inside (by decide))
          rcases cut with noQuote | bare
          · exact noQuote (List.mem_of_mem_head? starts)
          · exact bare.2 starts

/-! ### Brackets outside of quotes -/

section Brackets

variable {s t : List Char} {q q' q'' odd : Bool} {depth depth' depth'' : Nat}
variable {entries : List (String × Detail)}

theorem openBehind_append :
    openBehind depth (s ++ t) = (openBehind depth s).bind (openBehind · t) := by
  induction s generalizing depth with
  | nil => rfl
  | cons c s ih =>
      simp only [List.cons_append, openBehind]
      split
      · exact ih
      · split
        · cases depth with
          | zero => rfl
          | succ depth => exact ih
        · exact ih

theorem openBehind_of_noBracket (h : HasNoBracket s) : openBehind depth s = some depth := by
  induction s with
  | nil => rfl
  | cons c s ih =>
      obtain ⟨first, others⟩ := List.forall_mem_cons.mp h
      simp only [List.mem_cons, List.not_mem_nil, or_false, not_or] at first
      simp only [openBehind, if_neg first.1, if_neg first.2]
      exact ih others

/-- Looking for the end of a group goes on behind the piece, with so many brackets open and in
quotes or not. -/
def PassesFrom (depth : Nat) (before : Bool) (piece : List Char) (depth' : Nat) (after : Bool) :
    Prop :=
  ∀ tail, takeGroup depth before (piece ++ tail) =
    (takeGroup depth' after tail).map fun (inner, behind) => (piece ++ inner, behind)

theorem PassesFrom.of_passes (h : Passes q s q') : PassesFrom depth q s depth q' := h depth

theorem PassesFrom.append (h : PassesFrom depth q s depth' q')
    (h' : PassesFrom depth' q' t depth'' q'') : PassesFrom depth q (s ++ t) depth'' q'' := by
  intro tail
  rw [List.append_assoc, h, h', Option.map_map]
  simp [Function.comp_def]

theorem PassesFrom.encloses (h : PassesFrom 0 false s 0 false) : Encloses s := by
  intro rest
  rw [h]
  simp [takeGroup]

/-- Outside of quotes, every bracket counts. -/
theorem passesFrom_of_outside (noQuote : '"' ∉ s) (h : openBehind depth s = some depth') :
    PassesFrom depth false s depth' false := by
  induction s generalizing depth with
  | nil =>
      obtain rfl := Option.some.inj h
      exact .of_passes (.nil false)
  | cons c s ih =>
      rw [List.mem_cons, not_or] at noQuote
      have other : c ≠ '"' := Ne.symm noQuote.1
      intro tail
      simp only [openBehind] at h
      simp only [List.cons_append, takeGroup, if_neg other, Bool.false_eq_true, if_false]
      split at h
      · next opens => simp [opens, ih noQuote.2 h tail, Function.comp_def]
      · next opens =>
          split at h
          · next closes =>
              cases depth with
              | zero => cases h
              | succ depth => simp [closes, ih noQuote.2 h tail, Function.comp_def]
          · next closes => simp [opens, closes, ih noQuote.2 h tail, Function.comp_def]

theorem decide_odd_add (m n : Nat) :
    decide (Odd (m + n)) = (decide (Odd m) ^^ decide (Odd n)) := by
  by_cases odd : Odd m <;> by_cases odd' : Odd n <;>
    simp [Nat.odd_add, ← Nat.not_odd_iff_even, odd, odd']

/-- A detail is passed as it is printed. Behind an odd number of quotes, the brackets in its value
count. -/
theorem passesFrom_print (tag : IsTagName name) (clear : Detail.IsClear detail.text)
    (h : openBehind depth (if odd then detail.text.toList else []) = some depth') :
    PassesFrom depth odd (detail.print name).toList depth'
      (odd ^^ decide (Odd (detail.text.toList.count '"'))) := by
  have word (q : Bool) : Passes q name.toList q := (spellsName_self tag).read tag |>.1.passes
  cases detail with
  | flag =>
      obtain rfl : depth = depth' := by simpa [Detail.text, openBehind] using h
      simpa [Detail.text, Detail.print] using PassesFrom.of_passes (word odd)
  | value text =>
      change Detail.IsClear text at clear
      change openBehind depth (if odd then text.toList else []) = _ at h
      change PassesFrom depth odd (Detail.printValue name text).toList depth'
        (odd ^^ decide (Odd (text.toList.count '"')))
      have mark (q : Bool) : Passes q ['='] q := passes_of_ne (by decide) (.inr (by decide))
      cases quoted : Detail.needsQuotes text with
      | true =>
          have noQuote : '"' ∉ text.toList := fun held => by simp [clear held] at quoted
          have inside : PassesFrom depth (!odd) text.toList depth' (!odd) := by
            cases odd with
            | false =>
                obtain rfl : depth = depth' := by simpa [openBehind] using h
                exact .of_passes (passes_of_quoted noQuote)
            | true => exact passesFrom_of_outside noQuote (by simpa using h)
          have around := (PassesFrom.of_passes (passes_quote odd)).append
            (inside.append (.of_passes (passes_quote (!odd))))
          rw [Bool.not_not] at around
          have none_there : text.toList.count '"' = 0 := List.count_eq_zero.mpr noQuote
          rw [toList_printValue_of_quoted quoted]
          simpa [none_there] using (PassesFrom.of_passes (word odd)).append
            ((PassesFrom.of_passes (mark odd)).append around)
      | false =>
          obtain ⟨-, -, noBracket⟩ := of_not_needsQuotes quoted
          obtain rfl : depth = depth' := by
            cases odd with
            | false => simpa [openBehind] using h
            | true => simpa [openBehind_of_noBracket noBracket] using h
          rw [toList_printValue_of_bare quoted]
          exact .of_passes
            ((word odd).append ((mark odd).append (passes_of_noBracket noBracket odd)))

/-- Details are passed as they are printed, with commas between them. -/
theorem passesFrom_printEach (tags : ∀ p ∈ entries, IsTagName p.1)
    (clear : ∀ p ∈ entries, Detail.IsClear p.2.text)
    (h : openBehind depth (exposed odd entries) = some depth') :
    PassesFrom depth odd (",".intercalate (entries.map fun p => p.2.print p.1)).toList depth'
      (odd ^^ decide (Odd (quotesIn entries))) := by
  rw [String.toList_intercalate, List.map_map]
  induction entries generalizing odd depth with
  | nil =>
      obtain rfl := Option.some.inj h
      simpa [quotesIn] using PassesFrom.of_passes (.nil odd)
  | cons p entries ih =>
      obtain ⟨tag, tags⟩ := List.forall_mem_cons.mp tags
      obtain ⟨clear, others⟩ := List.forall_mem_cons.mp clear
      rw [exposed, openBehind_append, Option.bind_eq_some_iff] at h
      obtain ⟨middle, first, rest⟩ := h
      have first := passesFrom_print tag clear first
      have rest := ih tags others rest
      rw [quotesIn_cons, decide_odd_add, ← Bool.xor_assoc]
      cases entries with
      | nil => simpa using first.append rest
      | cons p' entries =>
          have comma (q : Bool) : Passes q [','] q := passes_of_ne (by decide) (.inr (by decide))
          simpa using first.append ((PassesFrom.of_passes (comma _)).append rest)

end Brackets

/-! ### Groups -/

/-- Details are printed as they can be written between brackets. -/
theorem isReadInGroup_printDetails (areDetails : AreDetailsOf name details.entries)
    (cut : (Remark.group name details.entries).IsCut)
    (clear : Annotation.IsClear (.group name details)) :
    IsReadInGroup details.entries details.printDetails.toList := by
  obtain ⟨values, brackets⟩ := clear
  have tags : ∀ p ∈ details.entries, IsTagName p.1 := fun p hp =>
    isTagName_of_allowedDetails (areDetails.known p hp)
  have spelled : SpellsEach (SpellsPlain false) (details.entries.map id)
      details.printDetails.toList :=
    spellsEach_intercalate fun p hp => spellsPlain_print p.2 (tags p hp) (cut.1 p hp) (values p hp)
  rw [List.map_id] at spelled
  -- the number of quotes is even again at the end because that of the quotes that were read was
  have even : ¬ Odd (quotesIn details.entries) := Nat.not_odd_iff_even.mpr cut.2
  have passes : PassesFrom 0 false details.printDetails.toList 0 _ :=
    passesFrom_printEach tags values brackets
  rw [decide_eq_false even, Bool.xor_false] at passes
  exact ⟨passes.encloses, spelled.items_details tags⟩

/-! ### Sets -/

/-- An entry is printed as it can be written. -/
theorem spellsRemark_print (tag : IsTagName (Remark.ofEntry e).name)
    (isAllowed : (Remark.ofEntry e).IsAllowed allowed) (cut : (Remark.ofEntry e).IsCut)
    (clear : e.2.IsClear) :
    SpellsRemark IsReadInGroup (.ofEntry e) (e.2.print e.1).toList := by
  obtain ⟨key, _ | text | ⟨name, details⟩⟩ := e
  · exact .plain (spellsPlain_print .flag tag cut nofun)
  · exact .plain (spellsPlain_print (.value text) tag cut clear)
  · have written : String.toList ( Annotation.print key (.group name details)) =
        name.toList ++ ([] ++ '(' :: (details.printDetails.toList ++ [')'])) := by
      simp [ Annotation.print, toString]
    rw [written]
    exact .group (spellsName_self tag) isBlankRun_nil
      (isReadInGroup_printDetails isAllowed.2 cut clear)

/-- The text of a set that has been read line by line reads back as the same set, with the same keys
of relations with details, unless quotes in values get in the way or the relations are too many for
their keys. -/
theorem read_print_of_readEach (known : allowed = entityNames ∨ allowed = propertyNames)
    (run : readEach allowed lines = .ok set) (few : set.relations.length ≤ 10 ^ 10)
    (clear : ∀ e ∈ set.entries, e.2.IsClear) : read allowed set.print = .ok set := by
  have names := areNames_of_known known
  obtain ⟨remarks, made⟩ := exists_isMadeOf names run
  have entries := made.entriesOf_entries names few
  have areAllowed : ∀ r ∈ set.entries.map Remark.ofEntry, r.IsAllowed allowed :=
    List.forall_mem_map.mpr fun e he => (made.of_mem_entries he).1
  have spelled : SpellsEach (SpellsRemark IsReadInGroup) (set.entries.map .ofEntry)
      set.print.toList := by
    refine spellsEach_intercalate fun e he => ?_
    obtain ⟨isAllowed, cut⟩ := made.of_mem_entries he
    exact spellsRemark_print (names _ isAllowed.name_mem).1 isAllowed cut (clear e he)
  have back := read_of_spellsEach names areAllowed (entries.symm ▸ set.nodup_keys) spelled
    fun _ _ _ _ inside => inside
  rwa [entries, KeyMap.ofList_entries] at back

/-- A bare value with quotes is printed without them, and so is one with brackets in quotes. -/
def clearSet : Annotations := mixedSet.insert "transient" (.value "a\"b\"")

theorem read_print_of_readEach_clearSet :
    readEach entityNames [mixedSpelling, "transient:a\"b\""] = .ok clearSet ∧
      clearSet.relations.length ≤ 10 ^ 10 ∧ (∀ e ∈ clearSet.entries, e.2.IsClear) ∧
      read entityNames clearSet.print = .ok clearSet := by
  have run : readEach entityNames [mixedSpelling, "transient:a\"b\""] = .ok clearSet := by
    rw [readEach, List.foldlM_cons, except_bind_eq_ok]
    exact ⟨mixedSet, read_mixedSpelling, by decide +kernel⟩
  have few : clearSet.relations.length ≤ 10 ^ 10 := by decide +kernel
  have clear : ∀ e ∈ clearSet.entries, e.2.IsClear := by decide +kernel
  exact ⟨run, few, clear, read_print_of_readEach (.inl rfl) run few clear⟩

/-- A relation whose target is printed between the quotes of two other values. -/
def relationBetweenQuotes (target : String) : Annotation :=
  .group "relation" (.ofList
    [("name", .value "a\"b"), ("to", .value target), ("uid", .value "c\"d")])

-- the brackets in the target count, and they are in order if they belong together
example : (relationBetweenQuotes "(x)").IsClear ∧ ¬ (relationBetweenQuotes "x)y").IsClear := by
  decide +kernel

/-- A bare value with a quote and an equals sign. -/
def unclearLine : String := "name=a\"b=c"

/-- The set of this line. -/
def unclearSet : Annotations := KeyMap.empty.insert "name" (.value "a\"b=c")

/-- The text of this set cannot be read: the value is printed in quotes for its equals sign, and it
ends at the quote in it. -/
theorem not_read_print_unclearSet :
    readEach entityNames [unclearLine] = .ok unclearSet ∧
      read entityNames unclearSet.print =
        .error (.tagMalformed .behindQuote 8 "name=\"a\"b=c\"") := by
  constructor <;> decide +kernel

end Annotations

end SchemaLedger
