/-
JSON lines of the log are decoded to the records that they tell.

The members of a line are those of the record, and the fields that the program carries along, which
take the place of members of their names (`lookup_members`). What is written is texts and a whole
number, so the line is printable ASCII and read as its members (`Style.line_decodes`).
-/
import SketchTurtle.Log.Line
import SketchTurtle.Proofs.Json.Row

namespace SketchTurtle.Log

open Json

/-- What a record is told by: the time, the level, who tells it and in which process, and the
message. -/
def Event.told (e : Event) (zoned : Bool) : List (String × Json) :=
  [("t", .text (e.stamp.time.exactText zoned)), ("lvl", .text e.record.level.name), ("name", .text e.record.source),
    ("pid", .int e.stamp.process), ("msg", .text e.record.message)]

variable {context : Context} {e : Event}

theorem members_eq_insertAll (he : e.failure? = none) (zoned : Bool) :
    Style.members zoned context e = insertAll (e.told zoned) context := by
  rw [Style.members, he]
  rfl

theorem nodup_names_members (he : e.failure? = none) (zoned : Bool) :
    ((Style.members zoned context e).map (·.1)).Nodup := by
  have htold : ((e.told zoned).map (·.1)).Nodup := by
    change ["t", "lvl", "name", "pid", "msg"].Nodup
    decide
  rw [members_eq_insertAll he]
  exact nodup_names_insertAll htold context

/-- A field of the program takes the place of a member of its name. -/
theorem lookup_members (he : e.failure? = none) (hnames : (context.map (·.1)).Nodup) (zoned : Bool) (name : String) :
    (Style.members zoned context e).lookup name = (context.lookup name).or ((e.told zoned).lookup name) := by
  rw [members_eq_insertAll he, lookup_insertAll hnames]

theorem mem_members {zoned : Bool} {member : String × Json} (he : e.failure? = none)
    (h : member ∈ Style.members zoned context e) : member ∈ e.told zoned ∨ member ∈ context := by
  rw [members_eq_insertAll he] at h
  exact mem_of_mem_insertAll h

/-- The values that stand in a line: texts, and whole numbers that are not too long to be read. -/
inductive IsLineValue : Json → Prop where
  | text (s : String) : IsLineValue (.text s)
  | int {n : Int} (h : isLongInt n = false) : IsLineValue (.int n)

theorem IsLineValue.readsInRow {v : Json} (h : IsLineValue v) : ReadsInRow v := by
  cases h with
  | text s => exact readsInRow_text s
  | int h => exact readsInRow_int h

theorem IsLineValue.isPlain {v : Json} (h : IsLineValue v) : ∀ d ∈ compactChars v, IsPlain d := by
  cases h with
  | text s => exact isPlain_quoted s
  | int h => exact isPlain_intText _

theorem isLineValue_told (hprocess : e.stamp.process < 10 ^ maxIntDigits) (zoned : Bool) :
    ∀ member ∈ e.told zoned, IsLineValue member.2 := by
  have hpid : isLongInt e.stamp.process = false := by
    rw [isLongInt, Nat.pow_eq, decide_eq_false_iff_not, Int.natAbs_natCast]
    omega
  intro member h
  simp only [Event.told, List.mem_cons, List.not_mem_nil, or_false] at h
  rcases h with rfl | rfl | rfl | rfl | rfl
  · exact .text _
  · exact .text _
  · exact .text _
  · exact .int hpid
  · exact .text _

/-- **A JSON line is decoded to its record.** Whatever texts the message, the names and the values of
the fields are, the line is one of printable ASCII, and it is read as an object that has just the
members of the record and the fields, of which those of a name win over the record's. A text is a
sequence of characters: halves of surrogate pairs are left out. -/
theorem Style.line_decodes {style : Style} (hjson : style.json = true) (he : e.failure? = none)
    (hprocess : e.stamp.process < 10 ^ maxIntDigits) (hnames : (context.map (·.1)).Nodup)
    (htexts : ∀ field ∈ context, ∃ s, field.2 = .text s) :
    (∀ c ∈ (style.line context e).toList, IsPlain c) ∧
      ∃ members, Json.read (style.line context e) = .ok (.object members) ∧ (members.map (·.1)).Nodup ∧
        ∀ name, members.lookup name = (context.lookup name).or ((e.told style.zoned).lookup name) := by
  have hvalues : ∀ member ∈ Style.members style.zoned context e, IsLineValue member.2 := by
    intro member h
    rcases mem_members he h with h | h
    · exact isLineValue_told hprocess _ member h
    · obtain ⟨s, hs⟩ := htexts member h
      exact hs ▸ .text s
  have hnone : (([] : List (String × Json)).map (·.1)).Nodup := List.nodup_nil
  rw [Style.line, if_pos hjson]
  refine ⟨isPlain_compact_object fun member h => (hvalues member h).isPlain, _,
    read_compact_object fun member h => (hvalues member h).readsInRow, nodup_names_insertAll hnone _, ?_⟩
  intro name
  rw [lookup_insertAll (nodup_names_members he _), lookup_members he hnames]
  exact Option.or_none

/-- Texts with quotes, backslashes, line breaks and characters beyond the first plane; one field is
named as the message is. -/
theorem Style.line_decodes_escapes :
    ∃ members, Json.read (Style.line ⟨true, false, true⟩ [("msg", .text "a\"\\b\n"), ("😀", .text "\u2028")]
        ⟨⟨Level.info, "x", "hidden"⟩, ⟨⟨0⟩, 4242⟩, none⟩) = .ok (.object members) ∧
      members.lookup "msg" = some (.text "a\"\\b\n") ∧ members.lookup "😀" = some (.text "\u2028") ∧
      members.lookup "lvl" = some (.text "INFO") ∧ members.lookup "exc" = none := by
  have hprocess : 4242 < 10 ^ maxIntDigits := Nat.lt_of_lt_of_le (by decide : 4242 < 10 ^ 4)
    (Nat.pow_le_pow_right (by decide) (by decide))
  obtain ⟨-, members, hread, -, hlookup⟩ :=
    @Style.line_decodes [("msg", .text "a\"\\b\n"), ("😀", .text "\u2028")]
      ⟨⟨Level.info, "x", "hidden"⟩, ⟨⟨0⟩, 4242⟩, none⟩ ⟨true, false, true⟩ rfl rfl hprocess (by decide) (by simp)
  refine ⟨members, hread, ?_, ?_, ?_, ?_⟩ <;> rw [hlookup]
  all_goals rfl

end SketchTurtle.Log
