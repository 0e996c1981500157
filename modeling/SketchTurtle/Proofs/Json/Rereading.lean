/-
What a saved document is read as.

Saving and reading changes a value in two places (`reread`): a real that is no
number becomes `null`, and a whole number with too many digits is refused. All
else is read as it was written. There is one lemma for each kind of value
(`readsBack_null` to `readsBack_object`), and `read_pretty` says what becomes of
a document.
-/
import SketchTurtle.Proofs.Json.Numbers
import SketchTurtle.Proofs.Json.Spelling

namespace SketchTurtle.Json

open Numeral

/-! ## What is read -/

mutual

/-- What a value is after it was written and read. -/
def reread : Json → Except Stop Json
  | .null => .ok .null
  | .bool b => .ok (.bool b)
  | .int n =>
    if isLongInt n then .error (.tooManyDigits (Layout.digitsOf n.natAbs).length) else .ok (.int n)
  | .float x => .ok (if (Exact.ofFloat x).isFinite then .float x else .null)
  | .text s | .unpaired s => .ok (.text s)
  | .array items => (rereadItems items).map .array
  | .object members => (rereadMembers [] members).map .object

/-- The items of an array. -/
def rereadItems : List Json → Except Stop (List Json)
  | [] => .ok []
  | item :: rest => (reread item).bind fun item => (rereadItems rest).map (item :: ·)

/-- The members of an object after those in `before`. -/
def rereadMembers (before : List (String × Json)) : List (String × Json) → Except Stop (List (String × Json))
  | [] => .ok before
  | (name, member) :: rest =>
    (reread member).bind fun member => rereadMembers (insert before name member) rest

end

/-! ## Lines -/

/-- Items after the first, each on a line of its own. -/
def following (level : Nat) : List (List Char) → List Char
  | [] => []
  | item :: rest => ',' :: (newline level ++ (item ++ following level rest))

theorem block_cons (opening closing : Char) (depth : Nat) (item : List Char) (rest : List (List Char)) :
    block opening closing depth (item :: rest) =
      opening :: (newline (depth + 1) ++ (item ++ (following (depth + 1) rest ++ (newline depth ++ [closing])))) := by
  have hlines : [','].intercalate ((item :: rest).map (newline (depth + 1) ++ ·)) =
      newline (depth + 1) ++ (item ++ following (depth + 1) rest) := by
    induction rest generalizing item with
    | nil => simp [following, List.intercalate]
    | cons next rest ih =>
      rw [List.map_cons, List.map_cons, List.intercalate_cons_cons, ← List.map_cons, ih, following]
      simp
  rw [block, if_neg (by simp), hlines]
  simp

theorem skipBlanks_eq_self {s : List Char} (h : StopsAt isBlank s) : skipBlanks s = s := by
  cases s with
  | nil => rfl
  | cons c s => exact List.dropWhile_cons_of_neg (by rw [stopsAt_cons.1 h]; exact Bool.false_ne_true)

theorem skipBlanks_newline (depth : Nat) {s : List Char} (h : StopsAt isBlank s) :
    skipBlanks (newline depth ++ s) = s := by
  refine dropWhile_run ?_ h
  intro c hc
  rcases List.mem_cons.1 hc with rfl | hc
  · rfl
  · rw [List.eq_of_mem_replicate hc]
    rfl

/-! ## Values -/

theorem exists_head {p : Parts} (hp : p.Proper) (negative : Bool) :
    ∃ c s, Layout.signed negative p.text = c :: s ∧ (c.isDigit = true ∨ c = '-') := by
  cases negative with
  | true => exact ⟨'-', p.text, rfl, .inr rfl⟩
  | false =>
    obtain ⟨d, ds, hds⟩ := List.exists_cons_of_ne_nil hp.whole_ne
    exact ⟨d, ds ++ _, by rw [Layout.signed, if_neg Bool.false_ne_true, Parts.text, hds, List.cons_append],
      .inl (hp.whole d (by simp [hds]))⟩

/-- A text that is no quoted text, no object and no array is a word or a number. -/
theorem value_simple (depth : Nat) {c : Char} {s : List Char} (hquote : c ≠ '"') (hbrace : c ≠ '\x7b')
    (hbracket : c ≠ '[') :
    value (depth + 1) (c :: s) =
      match word? (c :: s), number? (c :: s) with
      | some (value, rest), _ => .ok (value, rest)
      | none, some reading => reading
      | none, none => stopAt .valueExpected (c :: s) := by
  refine value.eq_5 (c :: s) depth ?_ ?_ ?_
  all_goals
    rintro rest ⟨⟩
    contradiction

theorem value_number {p : Parts} (hp : p.Proper) {negative : Bool} {rest : List Char} {reading : Reading Json}
    (h : number? (Layout.signed negative p.text ++ rest) = some reading) (depth : Nat) :
    value (depth + 1) (Layout.signed negative p.text ++ rest) = reading := by
  have hword := word?_text hp negative rest
  obtain ⟨c, s, hcs, hc⟩ := exists_head hp negative
  have hne (d : Char) (hdigit : d.isDigit = false) (hdash : d ≠ '-') : c ≠ d := by
    rintro rfl
    rcases hc with hc | hc
    · rw [hc] at hdigit
      cases hdigit
    · exact hdash hc
  rw [hcs, List.cons_append] at hword h ⊢
  rw [value_simple depth (hne _ rfl (by decide)) (hne _ rfl (by decide)) (hne _ rfl (by decide)), hword, h]

/-- A character with which a value may begin: no blank, no bracket that ends an
array, and no mark in front of a document. -/
def Begins (c : Char) : Prop := isBlank c = false ∧ c ≠ ']' ∧ c ≠ '\uFEFF'

instance (c : Char) : Decidable (Begins c) := inferInstanceAs (Decidable (_ ∧ _ ∧ _))

theorem begins_of_number {c : Char} (h : c.isDigit = true ∨ c = '-') : Begins c := by
  refine ⟨Bool.eq_false_iff.2 fun hblank => ?_, ?_, ?_⟩
  · simp only [isBlank, Bool.or_eq_true, beq_iff_eq] at hblank
    rcases hblank with ((rfl | rfl) | rfl) | rfl <;> simp at h
  · rintro rfl
    simp at h
  · rintro rfl
    simp at h

theorem exists_begins (level : Nat) (v : Json) : ∃ c s, prettyAt level v = c :: s ∧ Begins c := by
  cases v with
  | null => exact ⟨_, _, rfl, by decide⟩
  | bool b => cases b <;> exact ⟨_, _, rfl, by decide⟩
  | int n =>
    obtain ⟨c, s, hcs, hc⟩ := exists_head (proper_wholeParts n) (n < 0)
    exact ⟨c, s, by rw [prettyAt, intText_eq, hcs], begins_of_number hc⟩
  | float x =>
    cases h : Exact.ofFloat x with
    | finite negative m e =>
      obtain ⟨p, negative, htext, hp, -⟩ := exists_documentFloat (x := x) (by rw [h]; rfl)
      obtain ⟨c, s, hcs, hc⟩ := exists_head hp negative
      exact ⟨c, s, by rw [prettyAt, htext, hcs], begins_of_number hc⟩
    | _ =>
      rw [prettyAt, documentFloat, h]
      exact ⟨_, _, rfl, by decide⟩
  | text s => exact ⟨_, _, rfl, by decide⟩
  | unpaired s => exact ⟨_, _, rfl, by decide⟩
  | array items =>
    rw [prettyAt, block]
    split <;> exact ⟨_, _, rfl, by decide⟩
  | object members =>
    rw [prettyAt, block]
    split <;> exact ⟨_, _, rfl, by decide⟩

theorem stopsAt_prettyAt (level : Nat) (v : Json) (rest : List Char) :
    StopsAt isBlank (prettyAt level v ++ rest) := by
  obtain ⟨c, s, hcs, hc, -⟩ := exists_begins level v
  rw [hcs]
  exact stopsAt_cons.2 hc

/-- The text of a value is read as `reread` says, wherever it stands. Reading
takes less than two units of depth for each character. -/
def ReadsBack (v : Json) : Prop :=
  ∀ (level depth : Nat) (rest : List Char), Ends rest → 2 * (prettyAt level v).length < depth →
    value depth (prettyAt level v ++ rest) = (reread v).map (·, rest)

theorem readsBack_null : ReadsBack .null := by
  intro level depth rest _ hdepth
  obtain ⟨depth, rfl⟩ := Nat.exists_eq_succ_of_ne_zero (Nat.ne_zero_of_lt hdepth)
  have htext : prettyAt level .null = ['n', 'u', 'l', 'l'] := rfl
  rw [htext, List.cons_append, value_simple depth (by decide) (by decide) (by decide)]
  simp [word?, words, reread, Except.map]

theorem readsBack_bool (b : Bool) : ReadsBack (.bool b) := by
  intro level depth rest _ hdepth
  obtain ⟨depth, rfl⟩ := Nat.exists_eq_succ_of_ne_zero (Nat.ne_zero_of_lt hdepth)
  cases b with
  | false =>
    have htext : prettyAt level (.bool false) = ['f', 'a', 'l', 's', 'e'] := rfl
    rw [htext, List.cons_append, value_simple depth (by decide) (by decide) (by decide)]
    simp [word?, words, reread, Except.map]
  | true =>
    have htext : prettyAt level (.bool true) = ['t', 'r', 'u', 'e'] := rfl
    rw [htext, List.cons_append, value_simple depth (by decide) (by decide) (by decide)]
    simp [word?, words, reread, Except.map]

theorem readsBack_int (n : Int) : ReadsBack (.int n) := by
  intro level depth rest hrest hdepth
  obtain ⟨depth, rfl⟩ := Nat.exists_eq_succ_of_ne_zero (Nat.ne_zero_of_lt hdepth)
  have hnumber := number?_intText n hrest
  rw [prettyAt, reread]
  rw [intText_eq] at hnumber ⊢
  rw [value_number (proper_wholeParts n) hnumber]
  split <;> rfl

theorem readsBack_float (x : Float) : ReadsBack (.float x) := by
  by_cases hfinite : (Exact.ofFloat x).isFinite = true
  · intro level depth rest hrest hdepth
    obtain ⟨depth, rfl⟩ := Nat.exists_eq_succ_of_ne_zero (Nat.ne_zero_of_lt hdepth)
    have hnumber := number?_documentFloat hfinite hrest
    rw [prettyAt, reread, if_pos hfinite]
    obtain ⟨p, negative, htext, hproper, -⟩ := exists_documentFloat hfinite
    rw [htext] at hnumber ⊢
    rw [value_number hproper hnumber]
    rfl
  · have hnull : documentFloat x = "null".toList := by
      rw [documentFloat]
      split
      · next h =>
        rw [h] at hfinite
        exact absurd rfl hfinite
      · rfl
    intro level depth rest hrest hdepth
    rw [prettyAt, hnull] at *
    rw [reread, if_neg hfinite]
    exact readsBack_null level depth rest hrest hdepth

theorem readsBack_text (s : String) : ReadsBack (.text s) := by
  intro level depth rest _ hdepth
  obtain ⟨depth, rfl⟩ := Nat.exists_eq_succ_of_ne_zero (Nat.ne_zero_of_lt hdepth)
  have hspelled := isRead_escape.spelled s rest
  rw [prettyAt, quoted, List.cons_append, List.cons_append, List.append_assoc, List.singleton_append, value, hspelled]
  simp only [Except.map, value_spelled, reread]

theorem readsBack_unpaired (s : String) : ReadsBack (.unpaired s) := readsBack_text s

theorem skipBlanks_closing (level : Nat) {c : Char} (hc : isBlank c = false) (rest : List Char) :
    skipBlanks (newline level ++ c :: rest) = c :: rest :=
  skipBlanks_newline level (stopsAt_cons.2 hc)

theorem skipBlanks_cons {c : Char} (hc : isBlank c = false) (rest : List Char) : skipBlanks (c :: rest) = c :: rest :=
  skipBlanks_eq_self (stopsAt_cons.2 hc)

theorem ends_newline (level : Nat) (rest : List Char) : Ends (newline level ++ rest) := stopsAt_cons.2 rfl

theorem ends_cons {c : Char} (hc : isNumeric c = false) (rest : List Char) : Ends (c :: rest) := stopsAt_cons.2 hc

/-- The items of an array from one of them on are read as those before it and
themselves. -/
theorem items_following {item : Json} {more : List Json} (h : ∀ v ∈ item :: more, ReadsBack v) (level outer depth : Nat)
    (before : List Json) (rest : List Char)
    (hdepth : 2 * (prettyAt level item ++ following level (prettyItems level more)).length + 1 < depth) :
    items depth before (prettyAt level item ++ (following level (prettyItems level more) ++
        (newline outer ++ ']' :: rest))) =
      (rereadItems (item :: more)).map fun read => (.array (before.reverse ++ read), rest) := by
  induction more generalizing item depth before with
  | nil =>
    obtain ⟨depth, rfl⟩ := Nat.exists_eq_succ_of_ne_zero (Nat.ne_zero_of_lt hdepth)
    rw [prettyItems, following, List.append_nil] at hdepth
    have hitem := h item (by simp) level depth (newline outer ++ ']' :: rest) (ends_newline _ _) (by omega)
    have hclose : skipBlanks (newline outer ++ ']' :: rest) = ']' :: rest := skipBlanks_closing outer rfl rest
    rw [prettyItems, following, List.nil_append, items, hitem, rereadItems]
    cases reread item with
    | error stop => rfl
    | ok v => simp only [Except.map, hclose, rereadItems, Except.bind, List.reverse_cons]
  | cons next more ih =>
    obtain ⟨depth, rfl⟩ := Nat.exists_eq_succ_of_ne_zero (Nat.ne_zero_of_lt hdepth)
    simp only [prettyItems, following, List.append_assoc, List.cons_append, List.length_append,
      List.length_cons] at hdepth ⊢
    rw [items, h item (by simp) level depth _ (ends_cons rfl _) (by omega), rereadItems]
    cases reread item with
    | error stop => rfl
    | ok v =>
      have hcomma (s : List Char) : skipBlanks (',' :: s) = ',' :: s := skipBlanks_cons rfl s
      have hnext := ih (fun v hv => h v (List.mem_cons_of_mem _ hv)) depth (v :: before)
        (by rw [List.length_append]; omega)
      simp only [Except.map, hcomma, Except.bind, skipBlanks_newline level (stopsAt_prettyAt level next _), hnext]
      cases rereadItems (next :: more) with
      | error stop => rfl
      | ok read => simp

/-- A member is read from its quoted name, a colon, a blank and its value; and then
the end of the object or the next member. -/
theorem members_quoted {write : Char → List Char} (hwrite : IsRead write) (depth : Nat)
    (before : List (String × Json)) (name : String) {s : List Char} (hs : StopsAt isBlank s) :
    members (depth + 1) before (quoted write name ++ ':' :: ' ' :: s) =
      (value depth s).bind fun (read, rest) =>
        match skipBlanks rest with
        | '\x7d' :: rest => .ok (.object (insert before name read), rest)
        | ',' :: rest => members depth (insert before name read) (skipBlanks rest)
        | rest => stopAt .commaExpected rest := by
  have hcolon (s : List Char) : skipBlanks (':' :: s) = ':' :: s := skipBlanks_cons rfl s
  have hblank : skipBlanks (' ' :: s) = s := (List.dropWhile_cons_of_pos rfl).trans (skipBlanks_eq_self hs)
  rw [quoted, List.cons_append, List.cons_append, List.append_assoc, List.singleton_append, members, hwrite.spelled]
  simp only [hcolon, hblank, Spelled.addMember, if_true, List.reverse_reverse, String.ofList_toList]
  cases value depth s <;> rfl

/-- The text of a member and what follows it: the name, a colon, a blank and
the value. -/
def memberText (level : Nat) (name : String) (member : Json) (text : List Char) : List Char :=
  quoted escape name ++ ':' :: ' ' :: (prettyAt level member ++ text)

theorem members_memberText {depth level : Nat} {before : List (String × Json)} {name : String} {member : Json}
    {text : List Char} (h : ReadsBack member) (htext : Ends text)
    (hdepth : 2 * (prettyAt level member).length < depth) :
    members (depth + 1) before (memberText level name member text) =
      (reread member).bind fun read =>
        match skipBlanks text with
        | '\x7d' :: rest => .ok (.object (insert before name read), rest)
        | ',' :: rest => members depth (insert before name read) (skipBlanks rest)
        | rest => stopAt .commaExpected rest := by
  rw [memberText, members_quoted isRead_escape _ _ _ (stopsAt_prettyAt level member text), h level depth text htext hdepth]
  cases reread member <;> rfl

/-- The members of an object from one of them on are read into those before it. -/
theorem members_following {name : String} {member : Json} {more : List (String × Json)}
    (h : ∀ m ∈ (name, member) :: more, ReadsBack m.2) (level outer depth : Nat)
    (before : List (String × Json)) (rest : List Char)
    (hdepth : 2 * (prettyAt level member ++ following level (prettyMembers level more)).length + 1 < depth) :
    members depth before (memberText level name member
        (following level (prettyMembers level more) ++ (newline outer ++ '\x7d' :: rest))) =
      (rereadMembers before ((name, member) :: more)).map fun read => (.object read, rest) := by
  have hmember : ReadsBack member := h (name, member) List.mem_cons_self
  induction more generalizing name member depth before with
  | nil =>
    obtain ⟨depth, rfl⟩ := Nat.exists_eq_succ_of_ne_zero (Nat.ne_zero_of_lt hdepth)
    rw [prettyMembers, following, List.append_nil] at hdepth
    have hclose : skipBlanks (newline outer ++ '\x7d' :: rest) = '\x7d' :: rest := skipBlanks_closing outer rfl rest
    rw [prettyMembers, following, List.nil_append, members_memberText hmember (ends_newline _ _) (by omega),
      rereadMembers]
    cases reread member with
    | error stop => rfl
    | ok v => simp only [Except.map, hclose, rereadMembers, Except.bind]
  | cons next more ih =>
    obtain ⟨nextName, next⟩ := next
    obtain ⟨depth, rfl⟩ := Nat.exists_eq_succ_of_ne_zero (Nat.ne_zero_of_lt hdepth)
    simp only [prettyMembers, following, List.append_assoc, List.cons_append, List.length_append,
      List.length_cons] at hdepth ⊢
    rw [members_memberText hmember (ends_cons rfl _) (by omega), rereadMembers]
    cases reread member with
    | error stop => rfl
    | ok v =>
      have hcomma (s : List Char) : skipBlanks (',' :: s) = ',' :: s := skipBlanks_cons rfl s
      have hquote (s : List Char) : StopsAt isBlank (quoted escape nextName ++ s) := stopsAt_cons.2 rfl
      have hnext := ih (fun m hm => h m (List.mem_cons_of_mem _ hm)) depth (insert before name v)
        (by rw [List.length_append]; omega) (h (nextName, next) (by simp))
      simp only [Except.bind, hcomma, skipBlanks_newline level (hquote _)]
      exact hnext

theorem readsBack_array {items : List Json} (h : ∀ v ∈ items, ReadsBack v) : ReadsBack (.array items) := by
  intro level depth rest _ hdepth
  obtain ⟨depth, rfl⟩ := Nat.exists_eq_succ_of_ne_zero (Nat.ne_zero_of_lt hdepth)
  cases items with
  | nil => rfl
  | cons item more =>
    rw [prettyAt, prettyItems, block_cons] at hdepth ⊢
    simp only [List.length_cons, List.length_append] at hdepth
    have hfollowing := items_following h (level + 1) level depth [] rest (by rw [List.length_append]; omega)
    obtain ⟨c, s, hcs, -, hc, -⟩ := exists_begins (level + 1) item
    simp only [List.cons_append, List.append_assoc, List.nil_append, value,
      skipBlanks_newline (level + 1) (stopsAt_prettyAt (level + 1) item _)]
    rw [hcs, List.cons_append] at hfollowing ⊢
    split
    · next heq =>
      cases heq
      exact absurd rfl hc
    · rw [hfollowing, reread]
      cases rereadItems (item :: more) <;> rfl

theorem readsBack_object {members : List (String × Json)} (h : ∀ m ∈ members, ReadsBack m.2) :
    ReadsBack (.object members) := by
  intro level depth rest _ hdepth
  obtain ⟨depth, rfl⟩ := Nat.exists_eq_succ_of_ne_zero (Nat.ne_zero_of_lt hdepth)
  cases members with
  | nil => rfl
  | cons member more =>
    obtain ⟨name, member⟩ := member
    rw [prettyAt, prettyMembers, block_cons] at hdepth ⊢
    simp only [List.length_cons, List.length_append] at hdepth
    have hfollowing := members_following h (level + 1) level depth [] rest (by rw [List.length_append]; omega)
    have hquote (s : List Char) : StopsAt isBlank (quoted escape name ++ s) := stopsAt_cons.2 rfl
    simp only [List.cons_append, List.append_assoc, List.nil_append, value, skipBlanks_newline (level + 1) (hquote _)]
    refine (show _ = _ from hfollowing).trans ?_
    rw [reread]
    cases rereadMembers [] ((name, member) :: more) <;> rfl

/-- **Every value is read from its text as `reread` says.** -/
theorem readsBack : (v : Json) → ReadsBack v
  | .null => readsBack_null
  | .bool b => readsBack_bool b
  | .int n => readsBack_int n
  | .float x => readsBack_float x
  | .text s => readsBack_text s
  | .unpaired s => readsBack_unpaired s
  | .array items => readsBack_array fun v _ => readsBack v
  | .object members => readsBack_object fun m _ => readsBack m.2
termination_by v => sizeOf v
decreasing_by
  · decreasing_tactic
  · next h =>
    have := List.sizeOf_lt_of_mem h
    rw [Prod.mk.sizeOf_spec] at this
    decreasing_tactic

/-- **What a saved document is read as.** -/
theorem read_pretty (v : Json) : read (pretty v) = (reread v).mapError (Stop.inDocument (prettyAt 0 v)) := by
  obtain ⟨c, s, hcs, hblank, -, hmark⟩ := exists_begins 0 v
  have hstart : skipBlanks (prettyAt 0 v) = prettyAt 0 v := by
    rw [hcs, skipBlanks_cons hblank]
  have hvalue := readsBack v 0 (2 * (prettyAt 0 v).length + 2) [] (stopsAt_nil _) (by omega)
  rw [List.append_nil] at hvalue
  have hdocument : document (prettyAt 0 v) = reread v := by
    simp only [document, hstart, hvalue]
    cases reread v <;> rfl
  rw [read, pretty, String.toList_ofList]
  split
  · next heq =>
    rw [hcs] at heq
    cases heq
    exact absurd rfl hmark
  · rw [hdocument]
end SketchTurtle.Json
