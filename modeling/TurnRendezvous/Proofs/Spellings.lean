/-
# Records read from every spelling

Matches, the requests for them, invites and the two configurations are records, and other hands
may write them in many ways: the fields in any order, with members among them that nobody
knows, with blanks anywhere; as an array of the fields in their order; and without what has a
default and holds it.  Whichever it is, the same record is read (`Json.ReadsEverySpelling`), and
what gives a field twice, or too many fields, or lacks one without a default, is refused.

A record says by its slots what each field is read from, and its reader finds in what was
collected what the slots promise (`ofJson?_of_fits`).  What is left to show here is that a
reader does need the fields without a default.  A configuration of a search holds another
configuration, and its slot is read from whatever that one is read from.

* `records_read_from_every_spelling`: the five kinds of records.
-/
import TurnRendezvous.Proofs.Invite
import TurnRendezvous.Proofs.Match
import TurnRendezvous.Proofs.Timing

namespace TurnRendezvous

open Json (Value Record isSome_lookup_of_required? needs_nothing)

/-! ## What readers need -/

namespace Match

/-- The names of the fields without a default. -/
def needed : List String := ["id", "status", "turn_status", "participants", "creator", "local"]

theorem needed_of_ofJson? (v : Value) (m : Match) (h : ofJson? v = some m) :
    ∃ r, Record.ofValue? fieldNames v = some r ∧ ∀ n ∈ needed, (r.lookup n).isSome = true := by
  obtain ⟨r, hr, h⟩ := Option.bind_eq_some_iff.1 h
  obtain ⟨id, hid, h⟩ := Option.bind_eq_some_iff.1 h
  obtain ⟨status, hstatus, h⟩ := Option.bind_eq_some_iff.1 h
  obtain ⟨turn, hturn, h⟩ := Option.bind_eq_some_iff.1 h
  obtain ⟨participants, hparticipants, h⟩ := Option.bind_eq_some_iff.1 h
  obtain ⟨creator, hcreator, h⟩ := Option.bind_eq_some_iff.1 h
  obtain ⟨viewer, hviewer, -⟩ := Option.bind_eq_some_iff.1 h
  refine ⟨r, hr, ?_⟩
  simp only [needed, List.forall_mem_cons]
  exact ⟨isSome_lookup_of_required? hid, isSome_lookup_of_required? hstatus,
    isSome_lookup_of_required? hturn, isSome_lookup_of_required? hparticipants,
    isSome_lookup_of_required? hcreator, isSome_lookup_of_required? hviewer,
    List.forall_mem_nil _⟩

end Match

namespace Invite

/-- The names of the fields without a default. -/
def needed : List String := ["host", "port"]

theorem needed_of_ofJson? (v : Value) (i : Invite) (h : ofJson? v = some i) :
    ∃ r, Record.ofValue? fieldNames v = some r ∧ ∀ n ∈ needed, (r.lookup n).isSome = true := by
  obtain ⟨r, hr, h⟩ := Option.bind_eq_some_iff.1 h
  obtain ⟨host, hhost, h⟩ := Option.bind_eq_some_iff.1 h
  obtain ⟨port, hport, -⟩ := Option.bind_eq_some_iff.1 h
  refine ⟨r, hr, ?_⟩
  simp only [needed, List.forall_mem_cons]
  exact ⟨isSome_lookup_of_required? hhost, isSome_lookup_of_required? hport,
    List.forall_mem_nil _⟩

end Invite

/-! ## Main statement -/

/-- Every text of an object or of an array that spells a match, a request, an invite, a timing
or a search configuration is read as it, whatever the order of the members, what stands between
them and where the blanks are, and without the fields that hold their defaults; and in every
text where a field is given twice, where there are too many items or where one without a
default is not given, nothing is read. -/
theorem records_read_from_every_spelling :
    Json.ReadsEverySpelling Match.toJson Match.ofJson? (fun m => m.version < UInt64.size)
        Match.slots Match.fieldNames Match.needed ∧
      Json.ReadsEverySpelling MatchRequest.toJson MatchRequest.ofJson? (fun _ => True)
        MatchRequest.slots MatchRequest.fieldNames [] ∧
      Json.ReadsEverySpelling Invite.toJson Invite.ofJson? (fun _ => True)
        Invite.slots Invite.fieldNames Invite.needed ∧
      Json.ReadsEverySpelling Timing.toJson Timing.ofJson? Timing.IsWhole
        Timing.slots Timing.fieldNames [] ∧
      Json.ReadsEverySpelling SearchConfig.toJson SearchConfig.ofJson? (fun c => c.agent.IsWhole)
        SearchConfig.slots SearchConfig.fieldNames [] := by
  refine ⟨?_, ?_, ?_, ?_, ?_⟩
  · exact Json.readsEverySpelling_of_fits (fun _ => rfl) (by decide) (by decide) Match.written
      Match.ofJson?_of_fits Match.needed_of_ofJson?
  · exact Json.readsEverySpelling_of_fits (fun _ => rfl) (by decide) (List.nil_subset _)
      (fun c _ => c.written) MatchRequest.ofJson?_of_fits fun _ _ => needs_nothing
  · exact Json.readsEverySpelling_of_fits (fun _ => rfl) (by decide) (by decide)
      (fun i _ => i.written) Invite.ofJson?_of_fits Invite.needed_of_ofJson?
  · exact Json.readsEverySpelling_of_fits (fun _ => rfl) (by decide) (List.nil_subset _)
      Timing.written Timing.ofJson?_of_fits fun _ _ => needs_nothing
  · exact Json.readsEverySpelling_of_fits (fun _ => rfl) (by decide) (List.nil_subset _)
      SearchConfig.written SearchConfig.ofJson?_of_fits fun _ _ => needs_nothing

/-- A search configuration with a member that nobody knows, the name of another in other
letters, and an array for the configuration inside. -/
example : Json.readText? SearchConfig.ofJson?
    "\x7b \"x\": [\x7b\x7d, -1.5e3], \"max_attempts\" :null, \"handl\\u0065r\":\t[5000]\x7d\n" =
      some { agent := { firstTurnWait := .ofMillis 5000 }, maxAttempts := none } := by
  cbv

end TurnRendezvous
