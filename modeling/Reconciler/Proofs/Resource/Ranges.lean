import Reconciler.Proofs.Api.Client
import Reconciler.Proofs.Json.Refusal
import Reconciler.Resource.Lifecycle

/-! The integers of remote documents. A document that holds one of them beyond the range of its
field is no document of its kind. -/
namespace Reconciler
open Json

structure IntegerField where
  place : List Hop
  low : Int
  high : Int

namespace IntegerField

def uint16 (place : List Hop) : IntegerField := ⟨place, 0, 0xFFFF⟩

def uint32 (place : List Hop) : IntegerField := ⟨place, 0, 0xFFFFFFFF⟩

def int64 (place : List Hop) : IntegerField :=
  ⟨place, -0x8000000000000000, 0x7FFFFFFFFFFFFFFF⟩

/-- A reader takes no text with an integer beyond the range of this field. -/
def Guards {α : Type} (f : IntegerField) (value : Json → Option α) : Prop :=
  Refuses value f.place (IsIntBeyond f.low f.high)

end IntegerField

section Sections
variable {place : List Hop} {hop : Hop} {bad : Json → Prop}

def TrapTarget.member (name : String) : Hop := .member ["host", "port", "community"] name

theorem TrapTarget.refuses_port (h : Refuses toUInt16? place bad) :
    Refuses decode? (member "port" :: place) bad :=
  h.member 0 (by decide) (by decide) fun _ hread => by simp [hread]

def SnmpDocument.member (name : String) : Hop :=
  .member ["enabled", "version", "community", "location", "contact", "v3", "traps"] name

theorem SnmpDocument.refuses_trap (h : Refuses TrapTarget.decode? place bad) :
    Refuses decode? (member "traps" :: .item :: place) bad :=
  h.toList?.member [] (by decide) (by decide) fun _ hread => by simp [hread]

def LicenseDocument.member (name : String) : Hop :=
  .member ["key", "product", "seats", "expiresAt"] name

theorem LicenseDocument.refuses_seats (h : Refuses toUInt32? place bad) :
    Refuses decode? (member "seats" :: place) bad :=
  h.member 0 (by decide) (by decide) fun _ hread => by simp [hread]

def CpuSection.member (name : String) : Hop := .member ["maxPercent", "shares", "pinnedCores"] name

theorem CpuSection.refuses_figure {name : String} (hname : name ∈ ["maxPercent", "shares"])
    (h : Refuses toUInt32? place bad) : Refuses decode? (member name :: place) bad := by
  simp only [List.mem_cons, List.not_mem_nil, or_false] at hname
  rcases hname with rfl | rfl
  · exact h.member 0 (by decide) (by decide) fun _ hread => by simp [hread]
  · exact h.member 0 (by decide) (by decide) fun _ hread => by simp [hread]

theorem CpuSection.refuses_core (h : Refuses toUInt32? place bad) :
    Refuses decode? (member "pinnedCores" :: .item :: place) bad :=
  h.toList?.member [] (by decide) (by decide) fun _ hread => by simp [hread]

theorem CpuDocument.refuses_cpu (h : Refuses CpuSection.decode? (hop :: place) bad) :
    Refuses decode? (.member ["cpu"] "cpu" :: hop :: place) bad :=
  h.toOption?.member none (by decide) (by decide) fun _ hread => by simp [hread]

def IoSection.member (name : String) : Hop :=
  .member ["readBps", "writeBps", "readIops", "writeIops"] name

theorem IoSection.refuses_bandwidth {name : String} (hname : name ∈ ["readBps", "writeBps"])
    (h : Refuses toInt64? place bad) : Refuses decode? (member name :: place) bad := by
  simp only [List.mem_cons, List.not_mem_nil, or_false] at hname
  rcases hname with rfl | rfl
  · exact h.member 0 (by decide) (by decide) fun _ hread => by simp [hread]
  · exact h.member 0 (by decide) (by decide) fun _ hread => by simp [hread]

theorem IoSection.refuses_rate {name : String} (hname : name ∈ ["readIops", "writeIops"])
    (h : Refuses toUInt32? place bad) : Refuses decode? (member name :: place) bad := by
  simp only [List.mem_cons, List.not_mem_nil, or_false] at hname
  rcases hname with rfl | rfl
  · exact h.member 0 (by decide) (by decide) fun _ hread => by simp [hread]
  · exact h.member 0 (by decide) (by decide) fun _ hread => by simp [hread]

theorem IoDocument.refuses_io (h : Refuses IoSection.decode? (hop :: place) bad) :
    Refuses decode? (.member ["io"] "io" :: hop :: place) bad :=
  h.toOption?.member none (by decide) (by decide) fun _ hread => by simp [hread]

end Sections

namespace Kind

def integers : Kind → List IntegerField
  | .node => []
  | .snmp => [.uint16 [SnmpDocument.member "traps", .item, TrapTarget.member "port"]]
  | .cpuLimits =>
    [.uint32 [.member ["cpu"] "cpu", CpuSection.member "maxPercent"],
      .uint32 [.member ["cpu"] "cpu", CpuSection.member "shares"],
      .uint32 [.member ["cpu"] "cpu", CpuSection.member "pinnedCores", .item]]
  | .ioLimits =>
    [.int64 [.member ["io"] "io", IoSection.member "readBps"],
      .int64 [.member ["io"] "io", IoSection.member "writeBps"],
      .uint32 [.member ["io"] "io", IoSection.member "readIops"],
      .uint32 [.member ["io"] "io", IoSection.member "writeIops"]]
  | .license => [.uint32 [LicenseDocument.member "seats"]]

/-- No document with an integer beyond the range of its field is read. -/
theorem guards_decode? (k : Kind) : ∀ f ∈ k.integers, f.Guards k.schema.decode? := by
  cases k with
  | node => exact List.forall_mem_nil _
  | snmp =>
    exact List.forall_mem_singleton.2
      (SnmpDocument.refuses_trap (TrapTarget.refuses_port refuses_toUInt16?))
  | cpuLimits =>
    simp only [integers, List.forall_mem_cons]
    refine ⟨?_, ?_, ?_, List.forall_mem_nil _⟩
    · exact CpuDocument.refuses_cpu (CpuSection.refuses_figure (by decide) refuses_toUInt32?)
    · exact CpuDocument.refuses_cpu (CpuSection.refuses_figure (by decide) refuses_toUInt32?)
    · exact CpuDocument.refuses_cpu (CpuSection.refuses_core refuses_toUInt32?)
  | ioLimits =>
    simp only [integers, List.forall_mem_cons]
    refine ⟨?_, ?_, ?_, ?_, List.forall_mem_nil _⟩
    · exact IoDocument.refuses_io (IoSection.refuses_bandwidth (by decide) refuses_toInt64?)
    · exact IoDocument.refuses_io (IoSection.refuses_bandwidth (by decide) refuses_toInt64?)
    · exact IoDocument.refuses_io (IoSection.refuses_rate (by decide) refuses_toUInt32?)
    · exact IoDocument.refuses_io (IoSection.refuses_rate (by decide) refuses_toUInt32?)
  | license => exact List.forall_mem_singleton.2 (LicenseDocument.refuses_seats refuses_toUInt32?)

/-- A body spells a JSON text in which an integer of this kind's documents is beyond its range. -/
def Overflows (k : Kind) (body : List UInt8) : Prop :=
  ∃ f ∈ k.integers, ∃ j inner, spelled? some body = some j ∧ Leads f.place j inner ∧
    inner.IsIntBeyond f.low f.high

/-- Such a body spells no document. -/
theorem spelled?_of_overflows {k : Kind} {body : List UInt8} (h : k.Overflows body) :
    spelled? k.schema.decode? body = none := by
  obtain ⟨f, hf, j, inner, hspelled, hplace, hbad⟩ := h
  have htext : parseBytes? body = some j := by simpa [spelled?] using hspelled
  rw [spelled?, htext]
  exact k.guards_decode? f hf j inner hplace hbad

end Kind
end Reconciler
