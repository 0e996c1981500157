/-
Objects on one line are read back.

The members of a log line are texts and whole numbers, and each is read wherever it stands
(`readsInRow_text`, `readsInRow_int`). So the line is read as an object with the members that were
written; of several with one name the last counts (`read_compact_object`). It has no characters
but printable ASCII, whatever the texts are (`isPlain_quoted`, `isPlain_compact_object`).
-/
import SketchTurtle.Proofs.Json.Rereading

namespace SketchTurtle.Json

open Numeral

/-! ## Members -/

/-- The members after others, each taking the place of one of its name. -/
def insertAll (before members : List (String × Json)) : List (String × Json) :=
  members.foldl (fun read member => insert read member.1 member.2) before

section Insert

variable {name : String} {value : Json}

theorem lookup_insert (members : List (String × Json)) (key : String) :
    (insert members name value).lookup key = if key = name then some value else members.lookup key := by
  induction members with
  | nil => by_cases hkey : key = name <;> simp [insert, hkey]
  | cons member rest ih =>
    obtain ⟨n, v⟩ := member
    unfold insert
    by_cases hname : n = name
    · subst hname
      rw [if_pos rfl]
      by_cases hkey : key = n
      · simp [hkey]
      · simp only [List.lookup_cons, beq_eq_false_iff_ne.2 hkey, if_neg hkey]
    · rw [if_neg hname]
      by_cases hkey : key = n
      · subst hkey
        simp [hname]
      · simp only [List.lookup_cons, beq_eq_false_iff_ne.2 hkey, ih]

theorem nodup_names_insert {members : List (String × Json)} (h : (members.map (·.1)).Nodup) :
    ((insert members name value).map (·.1)).Nodup := by
  have hnames (members : List (String × Json)) : (insert members name value).map (·.1) =
      if name ∈ members.map (·.1) then members.map (·.1) else members.map (·.1) ++ [name] := by
    induction members with
    | nil => rfl
    | cons member rest ih =>
      obtain ⟨n, v⟩ := member
      unfold insert
      by_cases hname : n = name
      · simp [hname]
      · rw [if_neg hname, List.map_cons, ih]
        by_cases hrest : name ∈ rest.map (·.1) <;> simp [Ne.symm hname, hrest]
  rw [hnames]
  split
  · exact h
  · next hname =>
    refine List.nodup_append.2 ⟨h, List.nodup_singleton name, fun a ha b hb => ?_⟩
    rw [List.mem_singleton.1 hb]
    rintro rfl
    exact hname ha

theorem nodup_names_insertAll {before : List (String × Json)} (h : (before.map (·.1)).Nodup)
    (members : List (String × Json)) : ((insertAll before members).map (·.1)).Nodup := by
  induction members generalizing before with
  | nil => exact h
  | cons member rest ih => exact ih (nodup_names_insert h)

/-- Members with distinct names take the place of those before them. -/
theorem lookup_insertAll {members : List (String × Json)} (h : (members.map (·.1)).Nodup)
    (before : List (String × Json)) (key : String) :
    (insertAll before members).lookup key = (members.lookup key).or (before.lookup key) := by
  induction members generalizing before with
  | nil => rfl
  | cons member rest ih =>
    obtain ⟨name, value⟩ := member
    obtain ⟨hname, hrest⟩ := List.nodup_cons.1 h
    have hcons : insertAll before ((name, value) :: rest) = insertAll (insert before name value) rest := rfl
    rw [hcons, ih hrest, lookup_insert, List.lookup_cons]
    by_cases hkey : key = name
    · subst hkey
      have hnone : rest.lookup key = none :=
        List.lookup_eq_none_iff.2 fun member hmember => bne_iff_ne.2 fun heq =>
          hname (List.mem_map.2 ⟨member, hmember, heq.symm⟩)
      simp [hnone]
    · rw [if_neg hkey, beq_eq_false_iff_ne.2 hkey]

theorem mem_of_mem_insert {members : List (String × Json)} {member : String × Json}
    (h : member ∈ insert members name value) : member ∈ members ∨ member = (name, value) := by
  induction members with
  | nil => exact .inr (List.mem_singleton.1 h)
  | cons first rest ih =>
    obtain ⟨n, v⟩ := first
    unfold insert at h
    split at h
    · next hname =>
      rw [← hname]
      exact (List.mem_cons.1 h).symm.imp_left (List.mem_cons_of_mem _)
    · rcases List.mem_cons.1 h with rfl | h
      · exact .inl List.mem_cons_self
      · exact (ih h).imp_left (List.mem_cons_of_mem _)

theorem mem_of_mem_insertAll {before members : List (String × Json)} {member : String × Json}
    (h : member ∈ insertAll before members) : member ∈ before ∨ member ∈ members := by
  induction members generalizing before with
  | nil => exact .inl h
  | cons first rest ih =>
    rcases ih h with h | h
    · exact (mem_of_mem_insert h).imp_right fun h => List.mem_cons.2 (.inl h)
    · exact .inr (List.mem_cons_of_mem _ h)

end Insert

/-! ## Rows -/

/-- The text of a value on one line begins with no blank, and is read as the value. -/
structure ReadsInRow (v : Json) : Prop where
  begins : ∀ rest, StopsAt isBlank (compactChars v ++ rest)
  read : ∀ (depth : Nat) {rest : List Char}, Ends rest → value (depth + 1) (compactChars v ++ rest) = .ok (v, rest)

theorem readsInRow_text (s : String) : ReadsInRow (.text s) where
  begins rest := stopsAt_cons.2 rfl
  read depth rest _ := by
    rw [compactChars, quoted, List.cons_append, List.cons_append, List.append_assoc, List.singleton_append, value,
      isRead_escapeAscii.spelled]
    simp only [Except.map, value_spelled]

theorem readsInRow_int {n : Int} (h : isLongInt n = false) : ReadsInRow (.int n) where
  begins rest := by
    obtain ⟨c, s, hcs, hc⟩ := exists_head (proper_wholeParts n) (n < 0)
    rw [compactChars, intText_eq, hcs]
    exact stopsAt_cons.2 (begins_of_number hc).1
  read depth rest hrest := by
    have hnumber := number?_intText n hrest
    rw [compactChars]
    rw [intText_eq] at hnumber ⊢
    rw [value_number (proper_wholeParts n) hnumber, h]
    rfl

/-- Members after the first, each after a comma and a blank. -/
def trailing : List (List Char) → List Char
  | [] => []
  | member :: rest => ',' :: ' ' :: (member ++ trailing rest)

theorem row_cons (opening closing : Char) (member : List Char) (rest : List (List Char)) :
    row opening closing (member :: rest) = opening :: (member ++ (trailing rest ++ [closing])) := by
  have hmembers : [',', ' '].intercalate (member :: rest) = member ++ trailing rest := by
    induction rest generalizing member with
    | nil => simp [trailing, List.intercalate]
    | cons next rest ih =>
      rw [List.intercalate_cons_cons, ih, trailing]
      simp
  rw [row, hmembers]
  simp

/-- The members of an object from one of them on are read into those before it. -/
theorem members_trailing {name : String} {member : Json} {more : List (String × Json)}
    (h : ∀ m ∈ (name, member) :: more, ReadsInRow m.2) (depth : Nat) (before : List (String × Json))
    (rest : List Char) (hdepth : more.length + 1 < depth) :
    members depth before (quoted escapeAscii name ++ ':' :: ' ' ::
        (compactChars member ++ (trailing (compactMembers more) ++ '\x7d' :: rest))) =
      .ok (.object (insertAll before ((name, member) :: more)), rest) := by
  have hmember : ReadsInRow member := h (name, member) List.mem_cons_self
  induction more generalizing name member depth before with
  | nil =>
    obtain ⟨depth, rfl⟩ : ∃ d, depth = d + 2 := ⟨depth - 2, by simp at hdepth; omega⟩
    have hclose : skipBlanks ('\x7d' :: rest) = '\x7d' :: rest := skipBlanks_cons rfl rest
    rw [members_quoted isRead_escapeAscii _ _ _ (hmember.begins _), compactMembers, trailing, List.nil_append,
      hmember.read _ (ends_cons rfl rest)]
    simp only [Except.bind, hclose]
    rfl
  | cons next more ih =>
    obtain ⟨nextName, next⟩ := next
    rw [List.length_cons] at hdepth
    obtain ⟨depth, rfl⟩ : ∃ d, depth = d + 2 := ⟨depth - 2, by omega⟩
    have hcomma (s : List Char) : skipBlanks (',' :: s) = ',' :: s := skipBlanks_cons rfl s
    have hquote (s : List Char) : skipBlanks (' ' :: (quoted escapeAscii nextName ++ s)) =
        quoted escapeAscii nextName ++ s :=
      (List.dropWhile_cons_of_pos rfl).trans (skipBlanks_eq_self (stopsAt_cons.2 rfl))
    have hnext := ih (fun m hm => h m (List.mem_cons_of_mem _ hm)) (depth + 1) (insert before name member)
      (by omega) (h (nextName, next) (by simp))
    rw [members_quoted isRead_escapeAscii _ _ _ (hmember.begins _), compactMembers, trailing]
    simp only [List.cons_append, List.append_assoc] at hnext ⊢
    rw [hmember.read _ (ends_cons rfl _)]
    simp only [Except.bind, hcomma, hquote]
    exact hnext

theorem length_le_trailing (members : List (String × Json)) :
    members.length ≤ (trailing (compactMembers members)).length := by
  induction members with
  | nil => exact Nat.le_refl 0
  | cons member rest ih =>
    rw [compactMembers, trailing]
    simp only [List.length_cons, List.length_append]
    omega

theorem length_le_compactChars (members : List (String × Json)) :
    members.length ≤ (compactChars (.object members)).length := by
  cases members with
  | nil => exact Nat.zero_le _
  | cons member more =>
    have hmore := length_le_trailing more
    rw [compactChars, compactMembers, row_cons]
    simp only [List.length_cons, List.length_append]
    omega

theorem value_object_row {members : List (String × Json)} (h : ∀ m ∈ members, ReadsInRow m.2) {depth : Nat}
    (hdepth : members.length < depth) :
    value (depth + 1) (compactChars (.object members)) = .ok (.object (insertAll [] members), []) := by
  cases members with
  | nil => rfl
  | cons member more =>
    obtain ⟨name, member⟩ := member
    have hmembers := members_trailing h depth [] [] hdepth
    have hquote (s : List Char) : skipBlanks (quoted escapeAscii name ++ s) = quoted escapeAscii name ++ s :=
      skipBlanks_eq_self (stopsAt_cons.2 rfl)
    rw [compactChars, compactMembers, row_cons]
    simp only [List.cons_append, List.append_assoc, value, hquote]
    exact hmembers

/-- **An object on one line is read as the members that were written.** -/
theorem read_compact_object {members : List (String × Json)} (h : ∀ m ∈ members, ReadsInRow m.2) :
    read (compact (.object members)) = .ok (.object (insertAll [] members)) := by
  obtain ⟨s, hs⟩ : ∃ s, compactChars (.object members) = '\x7b' :: s := ⟨_, rfl⟩
  have hlength : members.length < 2 * (compactChars (.object members)).length + 1 := by
    have := length_le_compactChars members
    omega
  have hvalue := value_object_row h hlength
  have hdocument : document (compactChars (.object members)) = .ok (.object (insertAll [] members)) := by
    have hstart : skipBlanks (compactChars (.object members)) = compactChars (.object members) := by
      rw [hs]
      exact skipBlanks_cons rfl s
    rw [document, hstart, hvalue]
    rfl
  rw [hs] at hdocument
  rw [read, compact, String.toList_ofList, hs]
  exact congrArg (Except.mapError (Stop.inDocument ('\x7b' :: s))) hdocument

/-! ## Characters -/

/-- A character of printable ASCII. -/
def IsPlain (c : Char) : Prop := 32 ≤ c.toNat ∧ c.toNat < 127

instance (c : Char) : Decidable (IsPlain c) := inferInstanceAs (Decidable (_ ∧ _))

theorem isPlain_digitChar : ∀ n < 16, IsPlain n.digitChar := by
  decide

theorem isPlain_of_isDigit {c : Char} (h : c.isDigit = true) : IsPlain c := by
  simp only [Char.isDigit, Bool.and_eq_true, decide_eq_true_eq, UInt32.le_iff_toNat_le] at h
  have h48 : 48 ≤ c.toNat := h.1
  have h57 : c.toNat ≤ 57 := h.2
  exact ⟨by omega, by omega⟩

theorem isPlain_toDigits (n : Nat) : ∀ d ∈ Nat.toDigits 16 n, IsPlain d := by
  induction n using Nat.strongRecOn with
  | ind n ih =>
    intro d hd
    rw [Nat.toDigits_eq_if (by decide)] at hd
    split at hd
    · next h =>
      rw [List.mem_singleton.1 hd]
      exact isPlain_digitChar n h
    · next h =>
      rcases List.mem_append.1 hd with hd | hd
      · exact ih (n / 16) (by omega) d hd
      · rw [List.mem_singleton.1 hd]
        exact isPlain_digitChar _ (Nat.mod_lt _ (by decide))

theorem isPlain_unit (n : Nat) : ∀ d ∈ '\\' :: 'u' :: Text.hexDigits 4 n, IsPlain d := by
  intro d hd
  rw [Text.hexDigits, List.mem_cons, List.mem_cons, List.mem_append] at hd
  rcases hd with rfl | rfl | hd | hd
  · decide
  · decide
  · rw [List.eq_of_mem_replicate hd]
    decide
  · exact isPlain_toDigits n d hd

/-- **No character of a text stands in a log line but printable ASCII.** -/
theorem isPlain_escapeAscii (c : Char) : ∀ d ∈ escapeAscii c, IsPlain d := by
  rw [escapeAscii]
  split
  · next letter h =>
    have hletter : IsPlain letter := by
      simp only [letterEscape?] at h
      split at h <;> cases h <;> decide
    exact List.forall_mem_cons.2 ⟨by decide, List.forall_mem_singleton.2 hletter⟩
  · dsimp only
    split
    · next h =>
      rw [Bool.and_eq_true, decide_eq_true_eq, decide_eq_true_eq] at h
      intro d hd
      rwa [List.mem_singleton.1 hd]
    · split
      · exact isPlain_unit c.toNat
      · intro d hd
        exact (List.mem_append.1 hd).elim (isPlain_unit _ d) (isPlain_unit _ d)

theorem isPlain_quoted (s : String) : ∀ d ∈ quoted escapeAscii s, IsPlain d := by
  intro d hd
  rw [quoted, List.cons_append, List.mem_cons, List.mem_append, List.mem_flatMap, List.mem_singleton] at hd
  rcases hd with rfl | ⟨c, -, hd⟩ | rfl
  · decide
  · exact isPlain_escapeAscii c d hd
  · decide

theorem isPlain_intText (n : Int) : ∀ d ∈ intText n, IsPlain d := by
  have hdigits (d : Char) (hd : d ∈ Layout.digitsOf n.natAbs) : IsPlain d :=
    isPlain_of_isDigit (Nat.isDigit_of_mem_toDigits (by decide) (by decide) hd)
  intro d hd
  rw [intText, Layout.signed] at hd
  split at hd
  · rcases List.mem_cons.1 hd with rfl | hd
    · decide
    · exact hdigits d hd
  · exact hdigits d hd

theorem isPlain_trailing {members : List (String × Json)} (h : ∀ m ∈ members, ∀ d ∈ compactChars m.2, IsPlain d) :
    ∀ d ∈ trailing (compactMembers members), IsPlain d := by
  induction members with
  | nil => simp [compactMembers, trailing]
  | cons member rest ih =>
    obtain ⟨name, member⟩ := member
    intro d hd
    rw [compactMembers, trailing] at hd
    simp only [List.mem_cons, List.mem_append] at hd
    rcases hd with rfl | rfl | (hd | rfl | rfl | hd) | hd
    · decide
    · decide
    · exact isPlain_quoted name d hd
    · decide
    · decide
    · exact h (name, member) (by simp) d hd
    · exact ih (fun m hm => h m (List.mem_cons_of_mem _ hm)) d hd

/-- **An object on one line is printable ASCII if its members are.** -/
theorem isPlain_compact_object {members : List (String × Json)}
    (h : ∀ m ∈ members, ∀ d ∈ compactChars m.2, IsPlain d) :
    ∀ d ∈ (compact (.object members)).toList, IsPlain d := by
  rw [compact, String.toList_ofList, compactChars]
  cases members with
  | nil => exact List.forall_mem_cons.2 ⟨by decide, List.forall_mem_singleton.2 (by decide)⟩
  | cons member more =>
    -- with a comma and a blank in front, the members are those after another one
    have htrailing := isPlain_trailing h
    intro d hd
    rw [compactMembers, row_cons] at hd
    rw [compactMembers, trailing] at htrailing
    simp only [List.mem_cons, List.mem_append] at hd htrailing
    rcases hd with rfl | hd | hd | rfl | hd
    · decide
    · exact htrailing d (.inr (.inr (.inl hd)))
    · exact htrailing d (.inr (.inr (.inr hd)))
    · decide
    · cases hd

end SketchTurtle.Json
