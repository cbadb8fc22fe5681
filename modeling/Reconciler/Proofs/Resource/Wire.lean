import Reconciler.Proofs.Resource.Kinds

/-! What a record keeps when it travels as its document: all that is declared, but for the
protocols of an SNMP user without a name. -/
namespace Reconciler

/-- What a node declares; the server computes the rest. -/
def Node.declared (r : Node) : Node := { r with status := "", publicIp := "" }

def License.declared (r : License) : License :=
  { r with product := "", seats := 0, expiresAt := "" }

namespace Snmp

/-- Protocols travel with a user name only. -/
def carried (r : Snmp) : Snmp :=
  if r.username = "" then { r with authProtocol := "", privProtocol := "" } else r

def LosesProtocol (r : Snmp) : Prop :=
  r.username = "" ∧ (r.authProtocol ≠ "" ∨ r.privProtocol ≠ "")

theorem missing?_eq_none_iff {r : Snmp} :
    r.missing? = none ↔ (r.username = "" → r.authPassphrase = "" ∧ r.privPassphrase = "") := by
  unfold missing?
  split
  · next h =>
    obtain ⟨hsecret, huser⟩ := h
    refine iff_of_false nofun fun hnone => ?_
    obtain ⟨hauth, hpriv⟩ := hnone huser
    rcases hsecret with h | h
    · exact h hauth
    · exact h hpriv
  · next h =>
    refine iff_of_true rfl fun huser => ⟨?_, ?_⟩
    · exact Decidable.not_not.1 fun hauth => h ⟨.inl hauth, huser⟩
    · exact Decidable.not_not.1 fun hpriv => h ⟨.inr hpriv, huser⟩

theorem carried_eq_iff {r : Snmp} : r.carried = r ↔ ¬r.LosesProtocol := by
  obtain ⟨nodeId, enabled, version, community, location, contact, username, authProtocol,
    authPassphrase, privProtocol, privPassphrase, trapTargets⟩ := r
  by_cases huser : username = ""
  · simp [carried, LosesProtocol, huser, eq_comm, not_or]
  · simp [carried, LosesProtocol, huser]

/-- Checking a record rules out exactly that a passphrase is left behind. -/
theorem ofDocument_toDocument_eq_iff {r : Snmp} :
    ofDocument r.nodeId r.toDocument = r.carried ↔ r.missing? = none := by
  obtain ⟨nodeId, enabled, version, community, location, contact, username, authProtocol,
    authPassphrase, privProtocol, privPassphrase, trapTargets⟩ := r
  rw [missing?_eq_none_iff]
  by_cases huser : username = ""
  · simp [ofDocument, toDocument, carried, huser, SnmpUser.blank, eq_comm]
  · simp [ofDocument, toDocument, carried, huser]

end Snmp

namespace Kind

/-- The record that comes back when the document of a record is read again. -/
def overWire (k : Kind) (r : k.schema.Record) : k.schema.Record :=
  k.schema.ofDocument (k.schema.naturalKey r) (k.schema.toDocument r)

def declared : (k : Kind) → k.schema.Record → k.schema.Record
  | .node => Node.declared
  | .license => License.declared
  | .snmp | .cpuLimits | .ioLimits => fun r => r

/-- The part of a record that its document can carry. -/
def carried : (k : Kind) → k.schema.Record → k.schema.Record
  | .snmp => Snmp.carried
  | .node => Node.declared
  | .license => License.declared
  | .cpuLimits | .ioLimits => fun r => r

def LosesProtocol : (k : Kind) → k.schema.Record → Prop
  | .snmp => Snmp.LosesProtocol
  | .node | .cpuLimits | .ioLimits | .license => fun _ => False

/-- A record passes its check exactly when its document carries all that a document can. -/
theorem overWire_eq_carried_iff {k : Kind} {r : k.schema.Record} :
    k.overWire r = k.carried r ↔ k.schema.missing? r = none := by
  cases k with
  | snmp => exact Snmp.ofDocument_toDocument_eq_iff
  | node | cpuLimits | ioLimits | license => exact iff_of_true rfl rfl

theorem carried_eq_declared_iff {k : Kind} {r : k.schema.Record} :
    k.carried r = k.declared r ↔ ¬k.LosesProtocol r := by
  cases k with
  | snmp => exact Snmp.carried_eq_iff
  | node | cpuLimits | ioLimits | license => exact iff_of_true rfl id

theorem store_carried_secret (k : Kind) (r : k.schema.Record) :
    ∀ f ∈ k.fields, f.key ∈ k.secretKeys → f.store (k.carried r) = f.store r := by
  cases k with
  | snmp =>
    change ∀ f ∈ Snmp.fields, _ → f.store (Snmp.carried r) = f.store r
    by_cases huser : Snmp.username r = ""
    · simp [Snmp.fields, secretKeys, Field.plain, Field.blocks, Field.store, Snmp.carried, huser]
    · simp [Snmp.carried, huser]
  | node | cpuLimits | ioLimits =>
    intro f _ hx
    cases hx
  | license =>
    change ∀ f ∈ License.fields, _ → f.store (License.declared r) = f.store r
    simp [License.fields, secretKeys, Field.plain, Field.store, License.declared]

/-- A record that passes its check comes back with all it declares, secrets included, unless it
names protocols without a user: those are lost, and nothing else is. -/
theorem overWire_of_complete {k : Kind} {r : k.schema.Record} (hr : k.schema.missing? r = none) :
    k.overWire r = k.carried r ∧ (k.overWire r = k.declared r ↔ ¬k.LosesProtocol r) ∧
      ∀ x ∈ k.secretKeys, ∃ v, (x, v) ∈ k.parts r ∧ (x, v) ∈ k.parts (k.overWire r) := by
  have hcarried := overWire_eq_carried_iff.2 hr
  rw [hcarried]
  refine ⟨rfl, carried_eq_declared_iff, fun x hx => ?_⟩
  obtain ⟨get, set, hf⟩ := k.secret_mem hx
  exact ⟨_, mem_parts.2 ⟨_, hf, rfl, rfl⟩,
    mem_parts.2 ⟨_, hf, rfl, k.store_carried_secret r _ hf hx⟩⟩

/-- A user name brings back everything, the passphrase too. -/
theorem overWire_of_complete_monitored :
    snmp.schema.missing? Snmp.monitored = none ∧ snmp.overWire Snmp.monitored = Snmp.monitored := by
  have hnone : snmp.schema.missing? Snmp.monitored = none := rfl
  obtain ⟨-, hdeclared, -⟩ := overWire_of_complete hnone
  refine ⟨hnone, hdeclared.2 ?_⟩
  rintro ⟨huser, -⟩
  exact absurd huser (by decide : "monitor" ≠ "")

/-- Without a user name a protocol is lost, though nothing is missing. -/
theorem not_overWire_eq_declared :
    ¬∀ (k : Kind) (r : k.schema.Record), k.schema.naturalKey r ≠ "" →
      isPathSegment (k.schema.naturalKey r) = true → k.schema.missing? r = none →
      k.overWire r = k.declared r := by
  intro h
  have hlost := h snmp { Snmp.blank with nodeId := "abc123", authProtocol := "SHA" } (by decide)
    (by decide) rfl
  have hprotocol : "" = "SHA" := congrArg Snmp.authProtocol hlost
  exact absurd hprotocol (by decide)

end Kind
end Reconciler
