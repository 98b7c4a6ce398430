/-
# Matches survive JSON

Matches and the requests for them are read from the text in which they are
written.  Three things that the data can be are told apart there, none at all,
empty ones and others, and the version takes its 64 bits.

What each field is read from is said by its slot, which is all that its reader
asks for (`ofJson?_of_fits`) and what is written gives (`written`).

Texts by other hands give the fields in any order, with members among them that
nobody knows.  Where the data stand among these does not matter (`Spells`), nor
how they are given: only what they are read as reaches the match
(`ofJson?_congr`).

* `ofJson?_toJson`: matches and requests are read from the values they are written as;
* `read_back_from_json`: and from their texts; the data may be given as a string, and
  may be left out when there are none.
-/
import TurnRendezvous.Match.Json
import TurnRendezvous.Proofs.Json.Slot
import TurnRendezvous.Proofs.Json.Written

namespace TurnRendezvous

open Json (Value Record Literal Slot Fits IsWrittenFrom fits_of_written required?_of_given
  orDefault?_of_given)

/-! ## The fields -/

@[simp] theorem Status.isLegible_toJson (s : Status) : s.toJson.IsLegible := Value.isLegible_text _

@[simp] theorem Turn.isLegible_toJson (t : Turn) : t.toJson.IsLegible := Value.isLegible_text _

@[simp] theorem MatchId.isLegible_toJson (id : MatchId) : id.toJson.IsLegible :=
  Value.isLegible_text _

@[simp] theorem PlayerId.isLegible_toJson (p : PlayerId) : p.toJson.IsLegible :=
  Value.isLegible_text _

@[simp] theorem Status.ofJson?_toJson (s : Status) : Status.ofJson? s.toJson = some s := by
  rw [ofJson?, toJson, Value.variant?_text]
  cases s <;> decide

@[simp] theorem Turn.ofJson?_toJson (t : Turn) : Turn.ofJson? t.toJson = some t := by
  rw [ofJson?, toJson, Value.variant?_text]
  cases t <;> decide

@[simp] theorem MatchId.ofJson?_toJson (id : MatchId) : MatchId.ofJson? id.toJson = some id := by
  rw [ofJson?, toJson, Value.text?_text]
  rfl

@[simp] theorem PlayerId.ofJson?_toJson (p : PlayerId) : PlayerId.ofJson? p.toJson = some p := by
  rw [ofJson?, toJson, Value.text?_text]
  rfl

/-! ## Requests -/

namespace MatchRequest

theorem isLegible_toJson (c : MatchRequest) : c.toJson.IsLegible := by
  simp [toJson]

/-- What the fields of a request are read from. -/
def slots (c : MatchRequest) : List Slot :=
  [.optional "invitees" (Value.list? PlayerId.ofJson?) [] c.invitees,
    .optional "auto_match" Value.bool? false c.autoMatch]

theorem ofJson?_of_fits (c : MatchRequest) (v : Value) (r : Record)
    (hr : Record.ofValue? fieldNames v = some r) (h : Fits c.slots r) : ofJson? v = some c := by
  simp only [Fits, slots, List.forall_mem_cons] at h
  obtain ⟨hinvitees, hautoMatch, -⟩ := h
  rw [ofJson?, hr]
  simp only [Option.bind_eq_bind, Option.bind_some, orDefault?_of_given hinvitees,
    orDefault?_of_given hautoMatch]
  rfl

theorem written (c : MatchRequest) : IsWrittenFrom c.slots c.toJson := by
  have hinvitees := Value.list?_array PlayerId.ofJson?_toJson c.invitees
  refine ⟨_, rfl, by simp [slots], by simp, ?_⟩
  simp only [Fits, slots, List.forall_mem_cons]
  exact ⟨.once hinvitees, .once (Value.bool?_bool _), List.forall_mem_nil _⟩

theorem ofJson?_toJson (c : MatchRequest) : ofJson? c.toJson = some c := by
  obtain ⟨r, hr, hfits⟩ := fits_of_written c.written
  exact ofJson?_of_fits c _ r hr hfits

end MatchRequest

/-! ## Matches -/

namespace Match

theorem isLegible_toJson (m : Match) : m.toJson.IsLegible := by
  obtain ⟨id, status, turn, participants, creator, viewer, data, version⟩ := m
  cases data <;> simp [toJson, Value.option]

/-- What the fields of a match are read from. -/
def slots (m : Match) : List Slot :=
  [.required "id" MatchId.ofJson? m.id, .required "status" Status.ofJson? m.status,
    .required "turn_status" Turn.ofJson? m.turn,
    .required "participants" (Value.list? PlayerId.ofJson?) m.participants,
    .required "creator" PlayerId.ofJson? m.creator, .required "local" PlayerId.ofJson? m.viewer,
    .optional "data" (Value.option? Value.bytes?) none m.data,
    .optional "version" (Value.natBelow? UInt64.size) 0 m.version]

theorem ofJson?_of_fits (m : Match) (v : Value) (r : Record)
    (hr : Record.ofValue? fieldNames v = some r) (h : Fits m.slots r) : ofJson? v = some m := by
  simp only [Fits, slots, List.forall_mem_cons] at h
  obtain ⟨hid, hstatus, hturn, hparticipants, hcreator, hviewer, hdata, hversion, -⟩ := h
  rw [ofJson?, hr]
  simp only [Option.bind_eq_bind, Option.bind_some, required?_of_given hid,
    required?_of_given hstatus, required?_of_given hturn, required?_of_given hparticipants,
    required?_of_given hcreator, required?_of_given hviewer, orDefault?_of_given hdata,
    orDefault?_of_given hversion]
  rfl

theorem written (m : Match) (h : m.version < UInt64.size) : IsWrittenFrom m.slots m.toJson := by
  have hparticipants := Value.list?_array PlayerId.ofJson?_toJson m.participants
  have hdata := Value.option?_option Value.bytes?_ofBytes (fun _ => nofun) m.data
  refine ⟨_, rfl, by simp [slots], by simp, ?_⟩
  simp only [Fits, slots, List.forall_mem_cons]
  exact ⟨.once (MatchId.ofJson?_toJson _), .once (Status.ofJson?_toJson _),
    .once (Turn.ofJson?_toJson _), .once hparticipants, .once (PlayerId.ofJson?_toJson _),
    .once (PlayerId.ofJson?_toJson _), .once hdata, .once (Value.natBelow?_nat h),
    List.forall_mem_nil _⟩

/-- A match with a version of 64 bits is read from the value it is written as. -/
theorem ofJson?_toJson {m : Match} (h : m.version < UInt64.size) : ofJson? m.toJson = some m := by
  obtain ⟨r, hr, hfits⟩ := fits_of_written (m.written h)
  exact ofJson?_of_fits m _ r hr hfits

/-! ## Data by other hands -/

theorem ofJson?_of_refused {members : List (Literal × Value)}
    (h : Record.ofMembers? fieldNames members = none) : ofJson? (.object members) = none := by
  rw [ofJson?, Record.ofValue?, h]
  rfl

/-- A match is made of what its data are read as and of its other fields. -/
theorem ofJson?_congr {v v' : Value} {r r' : Record}
    (hr : Record.ofValue? fieldNames v = some r) (hr' : Record.ofValue? fieldNames v' = some r')
    (hrest : ∀ n, n ≠ "data" → r.lookup n = r'.lookup n)
    (hdata : r.orDefault? "data" (Value.option? Value.bytes?) none =
      r'.orDefault? "data" (Value.option? Value.bytes?) none) :
    ofJson? v = ofJson? v' := by
  have hversion : r.orDefault? "version" (Value.natBelow? UInt64.size) 0 =
      r'.orDefault? "version" (Value.natBelow? UInt64.size) 0 := by
    rw [Record.orDefault?, hrest "version" (by decide)]
    rfl
  have hid := hrest "id" (by decide)
  have hstatus := hrest "status" (by decide)
  have hturn := hrest "turn_status" (by decide)
  have hparticipants := hrest "participants" (by decide)
  have hcreator := hrest "creator" (by decide)
  have hviewer := hrest "local" (by decide)
  rw [ofJson?, ofJson?, hr, hr']
  simp only [Option.bind_eq_bind, Option.bind_some, Record.required?, hid, hstatus, hturn,
    hparticipants, hcreator, hviewer, hdata, hversion]

section
variable {before after : List (Literal × Value)} {key key' : Literal} {v v' : Value}

theorem data_mem_fieldNames : fieldNames.contains "data" = true := rfl

/-- Two values that are read as the same data make the same match, however the key is
spelled and whatever stands around it. -/
theorem ofJson?_of_same_data (hkey : key.text? = some "data") (hkey' : key'.text? = some "data")
    (hread : Value.option? Value.bytes? v = Value.option? Value.bytes? v') :
    ofJson? (.object (before ++ (key, v) :: after)) =
      ofJson? (.object (before ++ (key', v') :: after)) := by
  have hv := Record.ofMembers?_insertion (v := v) hkey data_mem_fieldNames before after
  have hv' := Record.ofMembers?_insertion (v := v') hkey' data_mem_fieldNames before after
  obtain ⟨hnone, hnone'⟩ | ⟨r, r', hr, hr', hdata, hdata', hrest⟩ := hv.both hv'
  · exact (ofJson?_of_refused hnone).trans (ofJson?_of_refused hnone').symm
  · refine ofJson?_congr hr hr' hrest ?_
    rw [Record.orDefault?, Record.orDefault?, hdata, hdata']
    exact hread

/-- A null among the members is no data, as if it were not there. -/
theorem ofJson?_of_null_data (hkey : key.text? = some "data")
    (hothers : ∀ m ∈ before ++ after, m.1.text? ≠ some "data") :
    ofJson? (.object (before ++ (key, .null) :: after)) = ofJson? (.object (before ++ after)) := by
  have hinserted := Record.ofMembers?_insertion (v := .null) hkey data_mem_fieldNames before after
  generalize hwithout : Record.ofMembers? fieldNames (before ++ after) = o,
    hwith : Record.ofMembers? fieldNames (before ++ (key, .null) :: after) = o' at hinserted
  cases hinserted with
  | refused => exact (ofJson?_of_refused hwith).trans (ofJson?_of_refused hwithout).symm
  | repeated there =>
    rw [Record.lookup_eq_none hwithout hothers] at there
    cases there
  | added fresh given rest =>
    refine ofJson?_congr hwith hwithout rest ?_
    rw [Record.orDefault?, Record.orDefault?, given, fresh]
    rfl

end

/-! ## Main statement -/

/-- Whether a text spells an object in which a value stands under that name, between those
other members. -/
def Spells (t : String) (before : List (Literal × Value)) (name : String) (v : Value)
    (after : List (Literal × Value)) : Prop :=
  ∃ key : Literal, key.text? = some name ∧
    Json.parse? t = some (.object (before ++ (key, v) :: after))

/-- The match that a text spells. -/
def parse? (text : String) : Option Match := (Json.parse? text).bind ofJson?

/-- Every match with a version of 64 bits and every request is read from its own text.
In a text by other hands, data that are given as a string are read like the array of
the string's bytes, and where no other data are given a null is read as if nothing stood
there; this is so in texts that are refused as well. -/
theorem read_back_from_json :
    (∀ m : Match, m.version < UInt64.size → parse? m.toJson.render = some m) ∧
    (∀ c : MatchRequest, (Json.parse? c.toJson.render).bind MatchRequest.ofJson? = some c) ∧
    (∀ t t' before after lit s, Literal.text? lit = some s →
      Spells t before "data" (.string lit) after →
      Spells t' before "data" (.array ((Text.utf8 s).map fun b => .nat b.toNat)) after →
      parse? t = parse? t') ∧
    (∀ t t' before after, (∀ m ∈ before ++ after, m.1.text? ≠ some "data") →
      Spells t before "data" .null after → Json.parse? t' = some (.object (before ++ after)) →
      parse? t = parse? t') := by
  refine ⟨?_, ?_, ?_, ?_⟩
  · intro m hm
    rw [parse?, Json.parse?_render m.isLegible_toJson]
    exact ofJson?_toJson hm
  · intro c
    rw [Json.parse?_render c.isLegible_toJson]
    exact c.ofJson?_toJson
  · rintro t t' before after lit s htext ⟨key, hkey, ht⟩ ⟨key', hkey', ht'⟩
    have hstring : Value.option? Value.bytes? (.string lit) = some (some (Text.utf8 s)) :=
      Value.option?_of_read (v := .string lit) nofun (congrArg some (Literal.bytes_of_text? htext))
    have harray : Value.option? Value.bytes? (.ofBytes (Text.utf8 s)) =
        some (some (Text.utf8 s)) :=
      Value.option?_of_read (v := .ofBytes _) nofun (Value.bytes?_ofBytes (Text.utf8 s))
    rw [parse?, parse?, ht, ht']
    exact ofJson?_of_same_data hkey hkey' (hstring.trans harray.symm)
  · rintro t t' before after hothers ⟨key, hkey, ht⟩ ht'
    rw [parse?, parse?, ht, ht']
    exact ofJson?_of_null_data hkey hothers

/-- With the highest version, and data that are one letter of two bytes; and the same match
without data. -/
theorem read_back_from_json_with_a_letter :
    let m : Match := ⟨⟨"m1"⟩, .active, .mine, [⟨"a"⟩, ⟨"b"⟩], ⟨"a"⟩, ⟨"b"⟩,
      some (Text.utf8 "ä"), UInt64.size - 1⟩
    let before : List (Literal × Value) :=
      [(.ofText "id", m.id.toJson), (.ofText "status", m.status.toJson),
        (.ofText "turn_status", m.turn.toJson),
        (.ofText "participants", .array (m.participants.map PlayerId.toJson)),
        (.ofText "creator", m.creator.toJson), (.ofText "local", m.viewer.toJson)]
    let after : List (Literal × Value) := [(.ofText "version", .nat m.version)]
    parse? (Value.object (before ++ (.ofText "data", .text "ä") :: after)).render = some m ∧
      parse? (Value.object (before ++ after)).render = some { m with data := none } := by
  intro m before after
  obtain ⟨hmatch, -, hstring, hnull⟩ := read_back_from_json
  have hkey : (Literal.ofText "data").text? = some "data" := Literal.text?_ofText _
  have hspells (v : Value) (hv : v.IsLegible) :
      Spells (Value.object (before ++ (.ofText "data", v) :: after)).render before "data" v
        after := by
    refine ⟨.ofText "data", hkey, Json.parse?_render (Value.isLegible_object.2 ?_)⟩
    simp [before, after, hv]
  have hbare : Json.parse? (Value.object (before ++ after)).render =
      some (.object (before ++ after)) := by
    refine Json.parse?_render (Value.isLegible_object.2 ?_)
    simp [before, after]
  constructor
  · have hread := hmatch m (by decide)
    exact (hstring _ _ _ _ _ "ä" (Literal.text?_ofText _) (hspells (.text "ä") (by simp))
      (hspells (.ofBytes (Text.utf8 "ä")) (by simp [Value.ofBytes]))).trans hread
  · have hread := hmatch { m with data := none } (by decide)
    refine (hnull _ _ _ _ ?_ (hspells .null (by simp)) hbare).symm.trans hread
    simp [before, after]

end Match

end TurnRendezvous
