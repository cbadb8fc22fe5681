import Reconciler.Proofs.Resource.Operations
import Reconciler.Proofs.Resource.Ranges

/-! What a failure leaves behind. Operations on a declared resource that fail leave its state as it
was. Adopting another resource does not: the natural key has already moved on. -/
namespace Reconciler

def IoLimits.throttled : IoLimits := ⟨"abc123", 1024, 0, 0, 0⟩

def IoLimits.existing : DeclaredState :=
  (DeclaredState.empty.set "node_id" (.string "abc123")).setId "io_limits_abc123"

/-- A document of limits with a bandwidth that no signed 64-bit integer holds. -/
def IoDocument.excessive : Json :=
  .record [("io", .record [("readBps", .int 18000000000000000000)])]

namespace Kind

/-- A response that is no document of the kind fails the reading. -/
theorem afterGet_undecodable {k : Kind} {c : Client} {s : DeclaredState} {key : String}
    {body : List UInt8} (h : k.document? body = none) :
    ∃ reason, k.afterGet c key s (.response ⟨200, body⟩) =
      (.error (.api (.decoding (k.path key) reason)), s) := by
  obtain ⟨reason, hreason⟩ : ∃ reason, (Except.ok (⟨200, body⟩ : Response) >>=
      decodeBody (k.path key) k.schema.decode?) = .error (.decoding (k.path key) reason) :=
    decodeBody_of_not_spelled h
  refine ⟨reason, ?_⟩
  rw [afterGet, Client.answered_ok, hreason]
  rfl

/-- Creating, reading, updating and deleting leave the state as it was whenever they fail. A reading
fails on every response that is no document of the kind, an integer beyond the range of its field
being enough. -/
theorem keeps_state_on_error {σ : Type} (k : Kind) (c : Client) (server : Server σ)
    (s : DeclaredState) (w : σ) :
    (∀ op ∈ [Op.create, .read, .update, .delete], ∀ e s',
      ((op.call k c s).run server w).1 = (.error e, s') → s' = s) ∧
    ∀ key body, k.HasKey s key → k.found c server key w = .response ⟨200, body⟩ →
      k.document? body = none ∨ k.Overflows body →
      ∃ reason, ((k.read c s).run server w).1 =
        (.error (.api (.decoding (k.path key) reason)), s) := by
  refine ⟨?_, ?_⟩
  · intro op hop e s' hrun
    have hsubject : op.subject k s = s := by
      cases op with
      | create | read | update | delete => rfl
      | adopt id => simp at hop
    have hkeeps := (Op.call_keepsOnError (k := k) (c := c) (s := s) op).run server w
    rw [hsubject, hrun] at hkeeps
    exact hkeeps e rfl
  · intro key body hkey hfound hbad
    obtain ⟨r, hr, rfl⟩ := hasKey_iff.1 hkey
    have hnone : k.document? body = none := hbad.elim id spelled?_of_overflows
    obtain ⟨reason, hreason⟩ := afterGet_undecodable (c := c) (s := s) hnone
    refine ⟨reason, ?_⟩
    rw [read_of_keyed hr, ← hreason, ← hfound]
    rfl

theorem overflows_excessive : ioLimits.Overflows (Client.payload IoDocument.excessive) := by
  have hspelled : IoDocument.excessive.WellSpelled := by
    refine .record (List.forall_mem_singleton.2 (.record (List.forall_mem_singleton.2 ?_)))
    exact Json.wellSpelled_int _
  refine ⟨.int64 [.member ["io"] "io", IoSection.member "readBps"], .head _,
    IoDocument.excessive, .int 18000000000000000000, ?_, ?_, _, Json.toInt?_int _, ?_⟩
  · simp [spelled?, Client.payload, Json.parse?_pretty hspelled]
  · exact ⟨_, Json.Hop.leads_record (.head _), _, Json.Hop.leads_record (.head _), rfl⟩
  · exact .inr (by decide)

/-- The bandwidth cannot be taken over, and the declared one stays. -/
theorem keeps_state_on_error_excessive :
    ∃ reason, ((ioLimits.read .blank (ioLimits.schema.project IoLimits.throttled .empty)).run
        (.answering (Client.payload IoDocument.excessive)) ()).1 =
      (.error (.api (.decoding "/v2/node/abc123/exec/io" reason)),
        ioLimits.schema.project IoLimits.throttled .empty) :=
  (keeps_state_on_error ioLimits .blank _ _ ()).2 "abc123" _
    (hasKey_iff.2 ⟨_, keyed_project (k := ioLimits) (by decide) (by decide) _, rfl⟩) rfl
    (.inr overflows_excessive)

/-- Adopting that fails leaves the identity and all other values alone. The natural key stays only
where the identity to adopt has none; otherwise it is now that of the resource asked for. -/
theorem adopt_on_error {σ : Type} {k : Kind} {c : Client} {id : String} {server : Server σ}
    {s s' : DeclaredState} {w : σ} {e : Failure}
    (h : ((k.adopt c id s).run server w).1 = (.error e, s')) :
    s'.id = s.id ∧ (∀ x, x ≠ k.naturalKey → s'.get? x = s.get? x) ∧
      (parseIdentity? k.tag id = none → e = .invalidIdentity k id ∧ s' = s) ∧
      ∀ key, parseIdentity? k.tag id = some key →
        s'.get? k.naturalKey = some (.string key) ∧
        (s' = s ↔ s.get? k.naturalKey = some (.string key)) := by
  have hcall : (((Op.adopt id).call k c s).run server w).1 = (.error e, s') := by
    rw [Op.call, Call.run_map, h]
    rfl
  cases hparse : parseIdentity? k.tag id with
  | none =>
    rw [Op.call_adopt_of_none hparse] at hcall
    cases hcall
    refine ⟨rfl, fun _ _ => rfl, fun _ => ⟨rfl, rfl⟩, fun key hkey => ?_⟩
    cases hkey
  | some key =>
    have hkeeps := (Op.call_keepsOnError (k := k) (c := c) (s := s) (.adopt id)).run server w
    rw [hcall] at hkeeps
    obtain rfl : s' = (Op.adopt id).subject k s := hkeeps e rfl
    rw [Op.subject_adopt_of_some hparse]
    refine ⟨rfl, fun x hx => by simp [hx], fun hnone => ?_, fun key' hkey => ?_⟩
    · cases hnone
    · cases hkey
      exact ⟨by simp, DeclaredState.set_eq_self_iff⟩

/-- A disconnect on the way to other limits. -/
theorem run_adopt_existing :
    ((ioLimits.adopt .blank "io_limits_def456" IoLimits.existing).run
        (.unreachable Unit "connection reset by peer") ()).1 =
      (.error (.api (.network "/v2/node/def456/exec/io" "connection reset by peer")),
        IoLimits.existing.set "node_id" (.string "def456")) := rfl

/-- The identity is still that of one resource, and the natural key is that of another. -/
theorem adopt_on_error_existing :
    ∃ e s', ((ioLimits.adopt .blank "io_limits_def456" IoLimits.existing).run
        (.unreachable Unit "connection reset by peer") ()).1 = (.error e, s') ∧
      s'.id = some "io_limits_abc123" ∧ s'.get? "node_id" = some (.string "def456") := by
  obtain ⟨hid, -, -, hkey⟩ := adopt_on_error run_adopt_existing
  exact ⟨_, _, run_adopt_existing, hid, (hkey "def456" rfl).1⟩

/-- Adopting that fails does not leave every state as it was. -/
theorem not_adopt_keeps_state :
    ¬∀ (k : Kind) (c : Client) (id : String) (server : Server Unit) (s s' : DeclaredState)
      (e : Failure), ((k.adopt c id s).run server ()).1 = (.error e, s') → s' = s := by
  intro h
  have hsame := h _ _ _ _ _ _ _ run_adopt_existing
  have hkey : (IoLimits.existing.set "node_id" (.string "def456")).get? "node_id" =
      IoLimits.existing.get? "node_id" := congrArg (·.get? "node_id") hsame
  simp [IoLimits.existing] at hkey

end Kind
end Reconciler
