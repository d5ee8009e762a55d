import SchemaLedger.Proofs.Tag.Scanner

/-!
# One pass reads what the items say

The items of a part of a text are the items of this part as a text of its own, with all faults moved
by the byte at which the part starts. So a scanner that reads a group as a text of its own and then
moves the fault comes to the same result as reading the items of the whole text, at any depth.
-/

namespace SchemaLedger.Tag

open Text Annotations

variable {α : Type} {text part name : String} {s t rest inner : List Char} {token : Token}
variable {k stop : Nat} {items : List Item} {fault : Option PlacedFault} {allowed : List String}

/-! ### Moving faults -/

/-- A fault that lies `k` bytes later. -/
def shiftFault (k : Nat) (fault : PlacedFault) : PlacedFault := (fault.1, k + fault.2)

/-- Items whose faults lie `k` bytes later. -/
def shiftAll (k : Nat) : List Item → List Item
  | [] => []
  | .flag name :: rest => .flag name :: shiftAll k rest
  | .value name text :: rest => .value name text :: shiftAll k rest
  | .group name items fault :: rest =>
    .group name (shiftAll k items) (fault.map (shiftFault k)) :: shiftAll k rest

theorem shiftAll_cons (k : Nat) (item : Item) (items : List Item) :
    shiftAll k (item :: items) = shiftAll k [item] ++ shiftAll k items := by
  cases item <;> simp [shiftAll]

/-- A text that ends later has its faults later. -/
theorem itemsOf_add (fits : byteLength s ≤ stop) :
    itemsOf (k + stop) s =
      (shiftAll k (itemsOf stop s).1, (itemsOf stop s).2.map (shiftFault k)) := by
  induction length : s.length using Nat.strongRecOn generalizing stop s with
  | ind n ih =>
      have shorter := length_dropWhile_le isSeparator s
      have less := byteLength_le_of_suffix (List.dropWhile_suffix isSeparator (l := s))
      rw [itemsOf_eq, itemsOf_eq]
      generalize s.dropWhile isSeparator = t at shorter less ⊢
      have item {token : Token} {rest : List Char} (read : nextToken t = .ok (token, rest)) :
          [itemOf (k + stop) rest token] = shiftAll k [itemOf stop rest token] := by
        cases token with
        | flag => simp [itemOf, shiftAll]
        | value => simp [itemOf, shiftAll]
        | group name inner =>
            obtain ⟨front, parts⟩ := group_of_nextToken read
            have inside := (nextToken_length read).2 name inner rfl
            have width : ')'.utf8Size = 1 := by decide
            have sum := congrArg byteLength parts
            simp only [byteLength_append, byteLength_cons, width] at sum
            have same : k + stop - byteLength rest - 1 = k + (stop - byteLength rest - 1) := by omega
            simp only [itemOf, shiftAll, same]
            rw [ih inner.length (by omega) (by omega) rfl]
      split
      · simp [shiftAll]
      · next first others =>
          split
          · next cause place failed =>
              have ends := byteLength_le_of_suffix (suffix_of_failed failed)
              have place : k + stop - byteLength place = k + (stop - byteLength place) := by omega
              simp [shiftAll, shiftFault, place]
          · next token read => simp [item read]
          · next token c rest read =>
              have ends := byteLength_le_of_suffix (suffix_of_nextToken read)
              have behind := (nextToken_length read).1
              have place :
                  k + stop - byteLength (c :: rest) = k + (stop - byteLength (c :: rest)) := by
                omega
              have first := item read
              split
              · rw [ih (c :: rest).length (by omega) (by omega) rfl, shiftAll_cons k (itemOf ..),
                  ← first]
                rfl
              · rw [place, first]
                rfl

/-! ### Moving errors -/

/-- An error is moved if it is about a fault. -/
theorem mapError_bind {ε ε' β γ : Type} (x : Except ε β) (f : β → Except ε γ) (g : ε → ε') :
    (x >>= f).mapError g = x.mapError g >>= fun a => (f a).mapError g := by
  cases x <;> rfl

theorem add_relocate (key : String) (x : α) (m : KeyMap α) :
    (add allowed name key x m).mapError (relocate text k) = add allowed name key x m := by
  unfold add
  split
  · rfl
  · split <;> rfl

theorem checkFlags_relocate (details : KeyMap Detail) :
    (checkFlags details).mapError (relocate text k) = checkFlags details := by
  unfold checkFlags
  split <;> rfl

theorem checkNamed_relocate (details : KeyMap Detail) :
    (checkNamed name details).mapError (relocate text k) = checkNamed name details := by
  unfold checkNamed
  split <;> rfl

theorem checkFault_relocate (part : String) (fault : Option PlacedFault) :
    (checkFault part fault).mapError (relocate text k) =
      checkFault text (fault.map (shiftFault k)) := by
  cases fault <;> rfl

theorem finishGroup_relocate (part : String) (fault : Option PlacedFault)
    (details : Except ModelError (KeyMap Detail)) :
    (finishGroup part name fault details).mapError (relocate text k) =
      finishGroup text name (fault.map (shiftFault k)) (details.mapError (relocate text k)) := by
  simp only [finishGroup, mapError_bind, checkFault_relocate, checkFlags_relocate,
    checkNamed_relocate]
  rfl

/-- Details are read from a part of a text as from this part alone, with the error moved. -/
theorem readDetails_relocate (part : String) (details : KeyMap Detail) (items : List Item) :
    (readDetails part allowed details items).mapError (relocate text k) =
      readDetails text allowed details (shiftAll k items) := by
  fun_induction readDetails part allowed details items with
  | case1 => rw [shiftAll, readDetails]; rfl
  | case2 allowed details name rest ih =>
      rw [shiftAll, readDetails, mapError_bind, add_relocate]
      simp only [ih]
  | case3 allowed details name value rest ih =>
      rw [shiftAll, readDetails, mapError_bind, add_relocate]
      simp only [ih]
  | case4 allowed details name items fault rest ih =>
      rw [shiftAll, readDetails, mapError_bind, finishGroup_relocate, ih]
      rfl

/-! ### The same result -/

namespace Collector

/-- Adds an item. -/
def addItem (c : Collector α) (text : String) (set : KeyMap α) : Item → Except ModelError (KeyMap α)
  | .flag name => c.plain name .flag set
  | .value name value => c.plain name (.value value) set
  | .group name items fault => do
    let details ←
      finishGroup text name fault (readDetails text (allowedDetails name) .empty items)
    c.group name details set

/-- Adds items in order, and then fails if there is a fault behind them. -/
def collect (c : Collector α) (text : String) (set : KeyMap α)
    (found : List Item × Option PlacedFault) : Except ModelError (KeyMap α) := do
  let set ← found.1.foldlM (c.addItem text) set
  checkFault text found.2
  return set

theorem collect_cons (c : Collector α) (set : KeyMap α) (item : Item) :
    c.collect text set (item :: items, fault) =
      c.addItem text set item >>= fun set => c.collect text set (items, fault) := by
  simp only [collect, List.foldlM_cons, bind_assoc]

theorem foldlM_details (details : KeyMap Detail) (items : List Item) :
    items.foldlM ((Collector.details allowed).addItem text) details =
      readDetails text allowed details items := by
  fun_induction readDetails text allowed details items with
  | case1 => rfl
  | case2 allowed details name rest ih =>
      rw [List.foldlM_cons]
      exact bind_congr ih
  | case3 allowed details name value rest ih =>
      rw [List.foldlM_cons]
      exact bind_congr ih
  | case4 allowed details name items fault rest ih =>
      rw [List.foldlM_cons, addItem, bind_assoc]
      rfl

theorem foldlM_annotations (set : Annotations) (items : List Item) :
    items.foldlM ((Collector.annotations allowed).addItem text) set =
      addItems text allowed set items := by
  induction items generalizing set with
  | nil => rfl
  | cons item items ih =>
      have same : (Collector.annotations allowed).addItem text set item =
          Annotations.addItem text allowed set item := by
        cases item <;> rfl
      rw [List.foldlM_cons, same]
      exact bind_congr fun set => ih set

end Collector

/-- Reading a group as a text of its own gives its details, with errors about the whole text. -/
theorem checkGroup_collect (last : inner ++ ')' :: rest <:+ text.toList) :
    checkGroup text name (startOf text (inner ++ ')' :: rest))
        ((Collector.details allowed).collect part .empty (itemsOf (byteLength inner) inner)) =
      finishGroup text name (itemsOf (startOf text rest - 1) inner).2
        (readDetails text allowed .empty (itemsOf (startOf text rest - 1) inner).1) := by
  have width : ')'.utf8Size = 1 := by decide
  have bracket := startOf_cons ((List.suffix_append inner (')' :: rest)).trans last)
  have stop : startOf text rest - 1 = startOf text (inner ++ ')' :: rest) + byteLength inner := by
    rw [bracket, startOf_append last, width, Nat.add_sub_cancel]
  rw [stop, itemsOf_add (Nat.le_refl _), ← readDetails_relocate part,
    ← finishGroup_relocate part]
  simp only [checkGroup, finishGroup, Collector.collect, Collector.foldlM_details, bind_assoc,
    pure_bind]

/-- The items behind an item. There are none if no separator is in between. -/
def itemsBehind (stop : Nat) : List Char → List Item × Option PlacedFault
  | [] => ([], none)
  | c :: rest =>
    if isSeparator c then itemsOf stop (c :: rest)
    else ([], some (.unexpected c, stop - byteLength (c :: rest)))

theorem itemsOf_of_nextToken (read : nextToken (s.dropWhile isSeparator) = .ok (token, rest)) :
    itemsOf stop s =
      (itemOf stop rest token :: (itemsBehind stop rest).1, (itemsBehind stop rest).2) := by
  rw [itemsOf_eq]
  cases front : s.dropWhile isSeparator with
  | nil => simp [front, nextToken] at read
  | cons first others =>
      rw [front] at read
      simp only [read]
      cases rest with
      | nil => rfl
      | cons c rest =>
          by_cases apart : isSeparator c <;> simp [itemsBehind, apart]

/-- What one pass does behind an item. -/
def scanBehind (c : Collector α) (text : String) (set : KeyMap α) :
    List Char → Option (Except ModelError (KeyMap α))
  | [] => some (.ok set)
  | d :: rest =>
    if isSeparator d then scan c text (startOf text (d :: rest)) set
    else some (.error (.tagMalformed (.unexpected d) (startOf text (d :: rest)) text))

/-- One pass over the text of a group comes to the same details as its items. -/
def IsScanned (inner : List Char) : Prop :=
  ∀ name, scan (.details (allowedDetails name)) (String.ofList inner) 0 .empty =
    some ((Collector.details (allowedDetails name)).collect (String.ofList inner) .empty
      (itemsOf (byteLength inner) inner))

/-- One pass is done where only separators are left. -/
theorem scan_nil (c : Collector α) (set : KeyMap α) (h : t <:+ text.toList)
    (front : t.dropWhile isSeparator = []) :
    scan c text (startOf text t) set = some (.ok set) := by
  rw [scan, skipWhile_startOf h, front]
  simp only
  rw [peek_startOf List.nil_suffix]
  rfl

/-- One pass stops where an item cannot be read. -/
theorem scan_failed (c : Collector α) (set : KeyMap α) {first : Char} {others place : List Char}
    {cause : TagFault} (h : t <:+ text.toList) (front : t.dropWhile isSeparator = first :: others)
    (failed : nextToken (first :: others) = .error (cause, place)) :
    scan c text (startOf text t) set =
      some (.error (.tagMalformed cause (startOf text place) text)) := by
  have next := dropWhile_suffix isSeparator h
  rw [front] at next
  have piece := scanPiece_startOf next
  rw [failed] at piece
  rw [scan, skipWhile_startOf h, front]
  simp only
  rw [peek_startOf next]
  simp only [List.head?_cons]
  rw [piece]
  rfl

/-- One pass adds the first item, and then goes on behind it. -/
theorem scan_cons (c : Collector α) (set : KeyMap α) {first : Char} {others : List Char}
    (h : t <:+ text.toList) (front : t.dropWhile isSeparator = first :: others)
    (read : nextToken (first :: others) = .ok (token, rest))
    (groups : ∀ name inner, token = .group name inner → IsScanned inner) :
    scan c text (startOf text t) set =
      match c.addItem text set (itemOf (byteLength text.toList) rest token) with
      | .error e => some (.error e)
      | .ok set => scanBehind c text set rest := by
  have next := dropWhile_suffix isSeparator h
  rw [front] at next
  have last := (suffix_of_nextToken read).trans next
  rw [scan, skipWhile_startOf h, front]
  simp only
  rw [peek_startOf next]
  simp only [List.head?_cons]
  rw [scanPiece_startOf next, read]
  simp only [landed, Except.map, peek_startOf last]
  -- both do the same with the set once the item has been added, so only adding it is compared
  refine (congrArg (· >>= _) (?_ : _ =
    some (c.addItem text set (itemOf (byteLength text.toList) rest token)))).trans ?_
  · cases token with
    | flag name => rfl
    | value name value => rfl
    | group name inner =>
        obtain ⟨head, parts⟩ := group_of_nextToken read
        have group : inner ++ ')' :: rest <:+ text.toList := by
          refine List.IsSuffix.trans ⟨head ++ ['('], ?_⟩ next
          simp [parts]
        simp only [Token.piece, startOf_group group]
        rw [groups name inner rfl name, Option.map_some, checkGroup_collect group]
        rfl
  · rw [Option.bind_eq_bind, Option.bind_some]
    cases c.addItem text set (itemOf (byteLength text.toList) rest token) with
    | error e => rfl
    | ok set => cases rest <;> rfl

/-- From where a last part of a text starts, one pass adds the items of this part, provided that it
reads shorter groups. -/
theorem scan_startOf (c : Collector α) (set : KeyMap α) (h : t <:+ text.toList)
    (groups : ∀ inner, byteLength inner < byteLength text.toList → IsScanned inner) :
    scan c text (startOf text t) set =
      some (c.collect text set (itemsOf (byteLength text.toList) t)) := by
  induction length : t.length using Nat.strongRecOn generalizing t set with
  | ind n ih =>
      have next := dropWhile_suffix isSeparator h
      have shorter := length_dropWhile_le isSeparator t
      cases front : t.dropWhile isSeparator with
      | nil =>
          rw [scan_nil c set h front, itemsOf_eq, front]
          rfl
      | cons first others =>
          rw [front] at next shorter
          cases read : nextToken (first :: others) with
          | error failed =>
              obtain ⟨cause, place⟩ := failed
              rw [scan_failed c set h front read, itemsOf_eq, front]
              simp only [read]
              rfl
          | ok found =>
              obtain ⟨token, rest⟩ := found
              have less := (nextToken_length read).1
              have last := (suffix_of_nextToken read).trans next
              -- what is left behind the item is shorter, whatever set it is added to
              have behind (set : KeyMap α) : scanBehind c text set rest =
                  some (c.collect text set (itemsBehind (byteLength text.toList) rest)) := by
                cases rest with
                | nil => rfl
                | cons d rest =>
                    rw [scanBehind, itemsBehind]
                    split
                    · exact ih (d :: rest).length (by omega) set last rfl
                    · rfl
              rw [itemsOf_of_nextToken (front ▸ read), Collector.collect_cons,
                scan_cons c set h front read fun name inner same => groups inner ?_]
              · cases c.addItem text set (itemOf (byteLength text.toList) rest token) with
                | error e => rfl
                | ok set => exact behind set
              · have inside := byteLength_of_nextToken (same ▸ read)
                exact Nat.lt_of_lt_of_le inside (byteLength_le_of_suffix next)

theorem isScanned (inner : List Char) : IsScanned inner := by
  induction length : byteLength inner using Nat.strongRecOn generalizing inner with
  | ind n ih =>
      intro name
      have whole : (String.ofList inner).toList = inner := String.toList_ofList
      have scanned := scan_startOf (.details (allowedDetails name)) .empty
        (List.suffix_refl (String.ofList inner).toList)
        fun inner less => ih (byteLength inner) (by rwa [whole, length] at less) inner rfl
      rwa [startOf_self, whole] at scanned

/-- One pass over a text gives a result or an error, and it is that of reading the items first. -/
theorem scanInto_eq (allowed : List String) (text : String) (set : Annotations) :
    scanInto allowed text set = some (readInto allowed text set) := by
  have scanned := scan_startOf (.annotations allowed) set (List.suffix_refl text.toList)
    fun inner _ => isScanned inner
  rw [startOf_self] at scanned
  rw [scanInto, scanned, Collector.collect, Collector.foldlM_annotations]
  rfl

/-- One pass over any text comes to an end without looking where there is no text or counting below
zero, and an error about a fault shows the whole text and the byte at which it lies, in groups too. -/
theorem scanInto_ends_and_faults_in_place (allowed : List String) (text : String)
    (set : Annotations) :
    scanInto allowed text set = some (readInto allowed text set) ∧
      ∀ cause position shown,
        readInto allowed text set = .error (.tagMalformed cause position shown) →
        shown = text ∧ position ≤ text.utf8ByteSize ∧
          String.Pos.Raw.IsValid text ⟨position⟩ ∧ LiesAt text.toList (cause, position) := by
  refine ⟨scanInto_eq allowed text set, fun cause position shown failed => ?_⟩
  obtain ⟨same, lies⟩ := liesAt_of_readInto failed
  exact ⟨same, lies.isValid.le_utf8ByteSize, lies.isValid, lies⟩

/-- A name is missing in a group in a group, behind a wide space. -/
def nestedFault : String := "\u3000id(sync(=ü))"

theorem readInto_nestedFault :
    readInto ["id"] nestedFault .empty =
      .error (.tagMalformed (.nameExpected '=') 11 nestedFault) := by
  have inner : itemsOf 14 "=ü".toList = ([], some (.nameExpected '=', 11)) := by
    rw [itemsOf_eq]
    rfl
  have outer : itemsOf 15 "sync(=ü)".toList =
      ([.group "sync" [] (some (.nameExpected '=', 11))], none) := by
    rw [itemsOf_eq]
    exact congrArg (fun found => ([Item.group "sync" found.1 found.2], none)) inner
  have whole : itemsOf 16 nestedFault.toList =
      ([.group "id" [.group "sync" [] (some (.nameExpected '=', 11))] none], none) := by
    rw [itemsOf_eq]
    exact congrArg (fun found => ([Item.group "id" found.1 found.2], none)) outer
  have bytes : byteLength nestedFault.toList = 16 := rfl
  rw [readInto, bytes, whole]
  simp only [addItems, addItem, readDetails]
  rfl

theorem scanInto_ends_and_faults_in_place_nestedFault :
    readInto ["id"] nestedFault .empty =
        .error (.tagMalformed (.nameExpected '=') 11 nestedFault) ∧
      LiesAt nestedFault.toList (.nameExpected '=', 11) := by
  obtain ⟨-, faults⟩ := scanInto_ends_and_faults_in_place ["id"] nestedFault .empty
  obtain ⟨-, -, -, lies⟩ := faults _ _ _ readInto_nestedFault
  exact ⟨readInto_nestedFault, lies⟩

end SchemaLedger.Tag
