import SchemaLedger.Proofs.Tag.Faults

/-!
# Reading a text in one pass

Instead of cutting a text into items first, it can be scanned: the scanner stands at a byte of the
text, adds each item to the set as soon as it has read it, and reads what is inside a group as a text
of its own, whose faults it then moves to where they lie in the whole text.

A pass gives something or reports an error. It gives nothing at all if it looks where there is no
text or counts below zero. It always ends: an item takes up some of the text, and what is inside a
group is shorter than the text that the group is in.
-/

namespace SchemaLedger.Tag

open Text

/-- Moves a fault in a part of a text that starts at the byte `start` to where it lies in the whole
text. -/
def relocate (text : String) (start : Nat) : ModelError → ModelError
  | .tagMalformed cause position _ => .tagMalformed cause (start + position) text
  | other => other

/-- Reads a value. -/
def scanValue (text : String) (pos : Nat) : Option (Except ModelError (String × Nat)) := do
  if (← peek text pos) ≠ some '"' then
    let (value, pos) ← takeRun (!isSeparator ·) text pos
    return .ok (value, pos)
  else
    let (_, pos) ← bump text pos
    let (value, pos) ← takeRun (· ≠ '"') text pos
    let (last, pos) ← bump text pos
    if last ≠ some '"' then
      return .error (.tagMalformed .unclosedQuote pos text)
    else
      match ← peek text pos with
      | some c =>
        if isSeparator c then return .ok (value, pos)
        else return .error (.tagMalformed .behindQuote pos text)
      | none => return .ok (value, pos)

/-- Looks for the bracket that closes the group that starts at the byte `start`. Gives the text of
the group and the byte behind the bracket. -/
def scanGroup (text : String) (start depth : Nat) (inQuotes : Bool) (pos : Nat) :
    Option (Except ModelError (String × Nat)) :=
  match _seen : bump text pos with
  | some (some c, next) =>
    if c = '"' then scanGroup text start depth (!inQuotes) next
    else if inQuotes then scanGroup text start depth inQuotes next
    else if c = '(' then scanGroup text start (depth + 1) inQuotes next
    else if c = ')' then
      if depth = 0 then do
        let stop ← minus next 1
        let inner ← cut text start stop
        return .ok (inner, next)
      else do
        let depth ← minus depth 1
        scanGroup text start depth inQuotes next
    else scanGroup text start depth inQuotes next
  | some (none, _) => some (.error (.tagMalformed .unclosedGroup start text))
  | none => none
termination_by text.utf8ByteSize - pos
decreasing_by
  all_goals
    have moves := lt_of_bump _seen
    omega

/-- An item whose group has not been read yet. -/
inductive Piece where
  | flag (name : String)
  | value (name text : String)
  /-- The text `inner` of the group starts at the byte `start`. -/
  | group (name inner : String) (start : Nat)

/-- Reads an item that starts with the character `first`. -/
def scanPiece (text : String) (first : Char) (pos : Nat) :
    Option (Except ModelError (Piece × Nat)) := do
  let (word, pos) ← takeRun (!endsName ·) text pos
  let name := lowercase (String.ofList (trimBlank word.toList))
  if name = "" then
    return .error (.tagMalformed (.nameExpected first) pos text)
  else
    let behind ← skipWhile isBlank text pos
    match ← peek text behind with
    | none => return .ok (.flag name, pos)
    | some c =>
      if c = '=' || c = ':' then
        let (_, behind) ← bump text behind
        let front ← skipWhile isBlank text behind
        match ← scanValue text front with
        | .ok (value, pos) => return .ok (.value name value, pos)
        | .error e => return .error e
      else if c = '(' then
        if (Annotations.detailNames.lookup name).isNone then
          return .error (.tagMalformed (.detailsOn name) behind text)
        else
          let (_, start) ← bump text behind
          match ← scanGroup text start 0 false start with
          | .ok (inner, pos) => return .ok (.group name inner start, pos)
          | .error e => return .error e
      else return .ok (.flag name, pos)

/-! ### One item -/

variable {text : String} {s t front inner rest word : List Char} {token : Token}

/-- What a step of reading gives, with bytes instead of what is left of the text. -/
def landed {α : Type} (text : String) : Except (TagFault × List Char) (α × List Char) →
    Except ModelError (α × Nat)
  | .ok (x, rest) => .ok (x, startOf text rest)
  | .error (cause, place) => .error (.tagMalformed cause (startOf text place) text)

theorem dropWhile_suffix (p : Char → Bool) (h : t <:+ text.toList) :
    t.dropWhile p <:+ text.toList :=
  (List.dropWhile_suffix p).trans h

theorem scanValue_startOf (h : t <:+ text.toList) :
    scanValue text (startOf text t) = some (landed text (readValue t)) := by
  rw [scanValue, peek_startOf h]
  by_cases quoted : t.head? = some '"'
  · obtain ⟨s, rfl⟩ := List.head?_eq_some_iff.mp quoted
    have behind : s <:+ text.toList := (List.suffix_cons '"' s).trans h
    have run := takeRun_startOf (p := (· ≠ '"')) behind
    have ends := dropWhile_suffix (· ≠ '"') behind
    have quote := List.head?_dropWhile_not (· ≠ '"') s
    simp only [readValue]
    generalize s.dropWhile (· ≠ '"') = back at run ends quote ⊢
    simp only [quoted, ne_eq, not_true_eq_false, if_false, bump_startOf h, run,
      Option.bind_eq_bind, Option.bind_some]
    cases back with
    | nil => simp [bump_startOf_nil, landed]
    | cons d others =>
        obtain rfl : d = '"' := by simpa using quote
        have left := (List.suffix_cons '"' others).trans ends
        rw [bump_startOf ends]
        cases others with
        | nil => simp [peek_startOf left, landed]
        | cons c rest =>
            by_cases apart : isSeparator c <;> simp [peek_startOf left, landed, apart]
  · have bare : readValue t =
        .ok (String.ofList (t.takeWhile (!isSeparator ·)), t.dropWhile (!isSeparator ·)) := by
      rw [readValue]
      rintro s rfl
      exact quoted rfl
    simp [bare, quoted, takeRun_startOf h, landed]

/-- A group and the text behind it, or where it was opened. -/
def landedGroup (text : String) (front t : List Char) :
    Option (List Char × List Char) → Except ModelError (String × Nat)
  | some (inner, rest) => .ok (String.ofList (front ++ inner), startOf text rest)
  | none => .error (.tagMalformed .unclosedGroup (startOf text (front ++ t)) text)

/-- With `front` already behind it, the scanner finds what is left of the group. -/
theorem scanGroup_startOf (front : List Char) (depth : Nat) (q : Bool)
    (h : front ++ t <:+ text.toList) :
    scanGroup text (startOf text (front ++ t)) depth q (startOf text t) =
      some (landedGroup text front t (takeGroup depth q t)) := by
  induction t generalizing front depth q with
  | nil =>
      rw [scanGroup, bump_startOf_nil]
      rfl
  | cons c t ih =>
      -- a character that does not close the group joins those already behind the scanner
      have go (depth : Nat) (q : Bool) :
          scanGroup text (startOf text (front ++ c :: t)) depth q (startOf text t) =
            some (landedGroup text front (c :: t)
              ((takeGroup depth q t).map fun taken => (c :: taken.1, taken.2))) := by
        have next := ih (front ++ [c]) depth q
        rw [List.append_assoc, List.singleton_append] at next
        rw [next h]
        cases takeGroup depth q t <;> simp [landedGroup]
      have last : c :: t <:+ text.toList := (List.suffix_append front (c :: t)).trans h
      rw [scanGroup, bump_startOf last]
      simp only [takeGroup]
      by_cases quote : c = '"'
      · rw [if_pos quote, if_pos quote]
        exact go depth (!q)
      · rw [if_neg quote, if_neg quote]
        by_cases inside : q
        · rw [if_pos inside, if_pos inside]
          exact go depth q
        · rw [if_neg inside, if_neg inside]
          by_cases opens : c = '('
          · rw [if_pos opens, if_pos opens]
            exact go (depth + 1) q
          · rw [if_neg opens, if_neg opens]
            by_cases closes : c = ')'
            · rw [if_pos closes, if_pos closes]
              subst closes
              cases depth with
              | zero =>
                  have width : ')'.utf8Size = 1 := by decide
                  have back : minus (startOf text t) 1 = some (startOf text (')' :: t)) := by
                    rw [startOf_cons last, width, minus, if_pos (Nat.le_add_left ..),
                      Nat.add_sub_cancel]
                  simp [back, cut_startOf h, landedGroup]
              | succ depth => exact go depth q
            · rw [if_neg closes, if_neg closes]
              exact go depth q

theorem trimBlank_of_isWord (h : IsWord word) : trimBlank word = word := by
  have front (s : List Char) (same : ∀ c ∈ s, c ∈ word) : s.dropWhile isBlank = s := by
    refine List.dropWhile_eq_self_iff.mpr fun some_left blank => ?_
    have ends := endsName_of_isSeparator (isSeparator_of_isBlank blank)
    rw [h.2 _ (same _ (List.getElem_mem some_left))] at ends
    cases ends
  rw [trimBlank, front word fun _ => id, front word.reverse fun _ => List.mem_reverse.mp,
    List.reverse_reverse]

/-- Where a group starts can be told from where it ends. -/
theorem startOf_group (h : inner ++ ')' :: rest <:+ text.toList) :
    startOf text rest - 1 - byteLength inner = startOf text (inner ++ ')' :: rest) := by
  have bracket := startOf_cons ((List.suffix_append inner (')' :: rest)).trans h)
  have whole := startOf_append h
  have width : ')'.utf8Size = 1 := by decide
  omega

/-- An item whose group ends in front of the byte `pos`, or another one. -/
def Token.piece (pos : Nat) : Token → Piece
  | .flag name => .flag name
  | .value name text => .value name text
  | .group name inner => .group name (String.ofList inner) (pos - 1 - byteLength inner)

/-- The scanner reads the same item. -/
theorem scanPiece_startOf {c : Char} (h : c :: t <:+ text.toList) :
    scanPiece text c (startOf text (c :: t)) =
      some ((landed text (nextToken (c :: t))).map fun found =>
        (found.1.piece found.2, found.2)) := by
  have parts := List.takeWhile_append_dropWhile (p := (!endsName ·)) (l := c :: t)
  have ends := dropWhile_suffix (!endsName ·) h
  have inside : ∀ d ∈ (c :: t).takeWhile (!endsName ·), endsName d = false := fun d hd => by
    simpa using List.mem_takeWhile_imp hd
  rw [scanPiece, takeRun_startOf h]
  simp only [nextToken, List.headD_cons, Option.bind_eq_bind, Option.bind_some]
  generalize (c :: t).takeWhile (!endsName ·) = word at parts inside ⊢
  generalize (c :: t).dropWhile (!endsName ·) = behind at parts ends ⊢
  rw [String.toList_ofList]
  -- a word has no white space to trim, and it is not empty in lower case either
  by_cases none_there : word = []
  · subst none_there
    obtain rfl : behind = c :: t := parts
    rfl
  · have isWord : IsWord word := ⟨none_there, inside⟩
    rw [trimBlank_of_isWord isWord, if_neg (lowercase_ne_empty none_there), if_neg none_there,
      skipWhile_startOf ends]
    have next := dropWhile_suffix isBlank ends
    generalize behind.dropWhile isBlank = front at next ⊢
    simp only [Option.bind_some, peek_startOf next]
    cases front with
    | nil => rfl
    | cons d after =>
        have last : after <:+ text.toList := (List.suffix_cons d after).trans next
        simp only [List.head?_cons]
        by_cases mark : d = '=' || d = ':'
        · rw [if_pos mark, if_pos mark, bump_startOf next]
          have value := scanValue_startOf (dropWhile_suffix isBlank last)
          simp only [Option.bind_some, skipWhile_startOf last, value]
          cases readValue (after.dropWhile isBlank) <;> rfl
        · rw [if_neg mark, if_neg mark]
          by_cases bracket : d = '('
          · rw [if_pos bracket, if_pos bracket]
            by_cases known : (Annotations.detailNames.lookup (lowercase (String.ofList word))).isNone
            · rw [if_pos known, if_pos known]
              rfl
            · rw [if_neg known, if_neg known, bump_startOf next]
              have group := scanGroup_startOf [] 0 false last
              rw [List.nil_append] at group
              simp only [Option.bind_some, group]
              cases taken : takeGroup 0 false after with
              | none => rfl
              | some found =>
                  obtain ⟨inner, rest⟩ := found
                  obtain rfl := append_of_takeGroup taken
                  simp only [landedGroup, landed, Except.map, Token.piece, List.nil_append,
                    startOf_group last]
                  rfl
          · rw [if_neg bracket, if_neg bracket]
            rfl

/-- What is in a group is shorter than the text. -/
theorem byteLength_of_nextToken {name : String} (h : nextToken s = .ok (.group name inner, rest)) :
    byteLength inner < byteLength s := by
  obtain ⟨front, parts⟩ := group_of_nextToken h
  have moves := '('.utf8Size_pos
  simp only [parts, byteLength_append, byteLength_cons]
  omega

/-- An item takes up some of the text, and so does a group that is in it. -/
theorem scanPiece_moves {c : Char} {pos next : Nat} {piece : Piece}
    (seen : peek text pos = some (some c)) (h : scanPiece text c pos = some (.ok (piece, next))) :
    pos < next ∧ next ≤ text.utf8ByteSize ∧ ∀ name inner start,
      piece = .group name inner start → inner.utf8ByteSize < text.utf8ByteSize := by
  obtain ⟨t, last, rfl, front⟩ := exists_of_peek seen
  obtain ⟨t, rfl⟩ := List.head?_eq_some_iff.mp front.symm
  rw [scanPiece_startOf last] at h
  cases read : nextToken (c :: t) with
  | error e =>
      rw [read] at h
      cases h
  | ok found =>
      obtain ⟨token, rest⟩ := found
      rw [read] at h
      cases h
      refine ⟨startOf_lt last (suffix_of_nextToken read) (nextToken_length read).1,
        startOf_le text rest, fun name inner start same => ?_⟩
      cases token with
      | flag => cases same
      | value => cases same
      | group name inner =>
          cases same
          have inside := byteLength_of_nextToken read
          obtain ⟨before, whole⟩ := last
          rw [← byteLength_eq, utf8ByteSize_eq, ← whole, byteLength_append]
          omega

/-! ### All items -/

/-- How items are added to a set. -/
structure Collector (α : Type) where
  plain (name : String) (detail : Detail) (set : KeyMap α) : Except ModelError (KeyMap α)
  group (name : String) (details : KeyMap Detail) (set : KeyMap α) : Except ModelError (KeyMap α)

/-- Adds items to the details of a group. A group is not among them. -/
def Collector.details (allowed : List String) : Collector Detail where
  plain name detail set := Annotations.add allowed name name detail set
  group name _ _ := .error (.tagUnknown name)

/-- Adds items to a set of annotations. -/
def Collector.annotations (allowed : List String) : Collector Annotation where
  plain name detail set :=
    let annotation := match detail with
      | .flag => Annotation.flag
      | .value value => .value value
    Annotations.add allowed name name annotation set
  group name details set :=
    Annotations.add allowed name (Annotations.groupKey set name details) (.group name details) set

/-- What is left to do once the text of a group that starts at the byte `start` has been read. -/
def checkGroup (text name : String) (start : Nat) (read : Except ModelError (KeyMap Detail)) :
    Except ModelError (KeyMap Detail) :=
  let checked := do
    let details ← read
    Annotations.checkFlags details
    Annotations.checkNamed name details
    return details
  checked.mapError (relocate text start)

/-- Reads the items of a text from a byte on and adds them to a set. The text of a group is read as a
text of its own. -/
def scan {α : Type} (c : Collector α) (text : String) (pos : Nat) (set : KeyMap α) :
    Option (Except ModelError (KeyMap α)) :=
  match _skipped : skipWhile isSeparator text pos with
  | none => none
  | some front =>
    match _seen : peek text front with
    | none => none
    | some none => some (.ok set)
    | some (some first) =>
      match _read : scanPiece text first front with
      | none => none
      | some (.error e) => some (.error e)
      | some (.ok (piece, behind)) => do
        let added ← (
          match _same : piece with
          | .flag name => some (c.plain name .flag set)
          | .value name value => some (c.plain name (.value value) set)
          | .group name inner start =>
            (scan (.details (Annotations.allowedDetails name)) inner 0 .empty).map fun read =>
              checkGroup text name start read >>= fun details => c.group name details set)
        match added with
        | .error e => some (.error e)
        | .ok set =>
          match ← peek text behind with
          | none => some (.ok set)
          | some d =>
            if isSeparator d then scan c text behind set
            else some (.error (.tagMalformed (.unexpected d) behind text))
termination_by (text.utf8ByteSize, text.utf8ByteSize - pos)
decreasing_by
  · have moves := scanPiece_moves _seen _read
    exact .left _ _ (moves.2.2 _ _ _ _same)
  · have skips := le_of_skipWhile _skipped
    have moves := scanPiece_moves _seen _read
    exact .right _ (by omega)

/-- Reads a text in one pass and adds its annotations to a set. -/
def scanInto (allowed : List String) (text : String) (set : Annotations) :
    Option (Except ModelError Annotations) :=
  scan (.annotations allowed) text 0 set

end SchemaLedger.Tag
