import Reconciler.Proofs.Api.Client
import Reconciler.Proofs.Json.Reader
import Reconciler.Proofs.Text.Utf8
import Reconciler.Resource.Lifecycle

/-! A document comes back from the payload it travels as, whatever its kind. -/
namespace Reconciler

/-- Documents survive the wire: their JSON can be written, and reads as the same document. -/
structure Schema.LawfulCodec (S : Schema) : Prop where
  wellSpelled : ∀ d, (S.encode d).WellSpelled
  decode?_encode : ∀ d, S.decode? (S.encode d) = some d

namespace Json

@[simp] theorem wellSpelled_int (i : Int) : (int i).WellSpelled :=
  .number (List.forall_mem_nil _)

@[simp] theorem wellSpelled_text (s : String) : (text s).WellSpelled := .text s

@[simp] theorem wellSpelled_bool (b : Bool) : (bool b).WellSpelled := .bool b

theorem wellSpelled_array_map {α : Type} {write : α → Json} (h : ∀ x, (write x).WellSpelled)
    (xs : List α) : (array (xs.map write)).WellSpelled := by
  refine .array fun j hj => ?_
  obtain ⟨x, -, rfl⟩ := List.mem_map.1 hj
  exact h x

end Json

open Json

theorem wellSpelled_of_mem_unlessEmpty {name value : String} {m : String × Json}
    (h : m ∈ unlessEmpty name value) : m.2.WellSpelled := by
  unfold unlessEmpty at h
  split at h
  · cases h
  · obtain rfl := List.mem_singleton.1 h
    exact .text value

namespace TrapTarget

theorem wellSpelled_encode (t : TrapTarget) : t.encode.WellSpelled :=
  .record (by simp)

theorem decode?_encode (t : TrapTarget) : decode? t.encode = some t := by
  rw [decode?, encode, members?_record (by simp) (by simp)]
  simp

end TrapTarget

namespace SnmpUser

theorem wellSpelled_encode (u : SnmpUser) : u.encode.WellSpelled :=
  .record (by simp)

theorem decode?_encode (u : SnmpUser) : decode? u.encode = some u := by
  rw [decode?, encode, members?_record (by simp) (by simp)]
  simp

end SnmpUser

namespace SnmpDocument

theorem wellSpelled_encode (d : SnmpDocument) : d.encode.WellSpelled := by
  refine .record ?_
  cases d.v3 with
  | none => simp [wellSpelled_array_map TrapTarget.wellSpelled_encode]
  | some u => simp [wellSpelled_array_map TrapTarget.wellSpelled_encode, u.wellSpelled_encode]

theorem decode?_encode (d : SnmpDocument) : decode? d.encode = some d := by
  obtain ⟨enabled, version, community, location, contact, v3, traps⟩ := d
  have htraps := toList?_array_map TrapTarget.decode?_encode traps
  cases v3 with
  | none =>
    rw [decode?, encode, members?_record (by simp) (by simp)]
    simp [htraps]
  | some u =>
    have hu : u.encode.toOption? SnmpUser.decode? = some (some u) :=
      toOption?_record u.decode?_encode
    rw [decode?, encode, members?_record (by simp) (by simp)]
    simp [htraps, hu]

end SnmpDocument

namespace NodeDocument

theorem wellSpelled_encode (d : NodeDocument) : d.encode.WellSpelled := by
  refine .record fun m hm => ?_
  rcases List.mem_append.1 hm with hm | hm
  · rcases List.mem_append.1 hm with hm | hm
    · simp only [List.mem_cons, List.not_mem_nil, or_false] at hm
      rcases hm with rfl | rfl | rfl | rfl
      · exact .text _
      · exact .text _
      · exact wellSpelled_array_map wellSpelled_text _
      · exact .text _
    · exact wellSpelled_of_mem_unlessEmpty hm
  · exact wellSpelled_of_mem_unlessEmpty hm

theorem decode?_encode (d : NodeDocument) : decode? d.encode = some d := by
  obtain ⟨name, description, tags, site, status, publicIp⟩ := d
  have htags := toList?_array_map toText?_text tags
  rw [decode?, encode]
  by_cases hstatus : status = "" <;> by_cases hip : publicIp = ""
  all_goals
    simp only [unlessEmpty, hstatus, hip, if_true, if_false]
    rw [members?_record (by simp) (by simp)]
    simp [htags]

end NodeDocument

namespace LicenseDocument

theorem wellSpelled_encode (d : LicenseDocument) : d.encode.WellSpelled := by
  refine .record fun m hm => ?_
  simp only [List.mem_append] at hm
  rcases hm with ((hm | hm) | hm) | hm
  · obtain rfl := List.mem_singleton.1 hm
    exact .text _
  · exact wellSpelled_of_mem_unlessEmpty hm
  · split at hm
    · cases hm
    · obtain rfl := List.mem_singleton.1 hm
      exact wellSpelled_int _
  · exact wellSpelled_of_mem_unlessEmpty hm

theorem decode?_encode (d : LicenseDocument) : decode? d.encode = some d := by
  obtain ⟨key, product, seats, expiresAt⟩ := d
  rw [decode?, encode]
  by_cases hproduct : product = "" <;> by_cases hseats : seats = 0 <;>
    by_cases hexpires : expiresAt = ""
  all_goals
    simp only [unlessEmpty, hproduct, hseats, hexpires, if_true, if_false]
    rw [members?_record (by simp) (by simp)]
    simp

end LicenseDocument

namespace CpuSection

theorem wellSpelled_encode (d : CpuSection) : d.encode.WellSpelled :=
  .record (by simp [wellSpelled_array_map fun n : UInt32 => wellSpelled_int n.toNat])

theorem decode?_encode (d : CpuSection) : decode? d.encode = some d := by
  rw [decode?, encode, members?_record (by simp) (by simp)]
  simp [toList?_array_map toUInt32?_int]

end CpuSection

namespace CpuDocument

theorem wellSpelled_encode (d : CpuDocument) : d.encode.WellSpelled := by
  refine .record ?_
  cases d.cpu with
  | none => simp
  | some cpu => simp [cpu.wellSpelled_encode]

theorem decode?_encode (d : CpuDocument) : decode? d.encode = some d := by
  obtain ⟨cpu⟩ := d
  rw [decode?, encode]
  cases cpu with
  | none => rfl
  | some cpu =>
    have hcpu : cpu.encode.toOption? CpuSection.decode? = some (some cpu) :=
      toOption?_record cpu.decode?_encode
    rw [members?_record (by simp) (by simp)]
    simp [hcpu]

end CpuDocument

namespace IoSection

theorem wellSpelled_encode (d : IoSection) : d.encode.WellSpelled :=
  .record (by simp)

theorem decode?_encode (d : IoSection) : decode? d.encode = some d := by
  rw [decode?, encode, members?_record (by simp) (by simp)]
  simp

end IoSection

namespace IoDocument

theorem wellSpelled_encode (d : IoDocument) : d.encode.WellSpelled := by
  refine .record ?_
  cases d.io with
  | none => simp
  | some io => simp [io.wellSpelled_encode]

theorem decode?_encode (d : IoDocument) : decode? d.encode = some d := by
  obtain ⟨io⟩ := d
  rw [decode?, encode]
  cases io with
  | none => rfl
  | some io =>
    have hio : io.encode.toOption? IoSection.decode? = some (some io) :=
      toOption?_record io.decode?_encode
    rw [members?_record (by simp) (by simp)]
    simp [hio]

end IoDocument

/-- Whatever the kind, documents survive the wire. -/
theorem Kind.lawfulCodec (k : Kind) : k.schema.LawfulCodec := by
  cases k with
  | node => exact ⟨NodeDocument.wellSpelled_encode, NodeDocument.decode?_encode⟩
  | snmp => exact ⟨SnmpDocument.wellSpelled_encode, SnmpDocument.decode?_encode⟩
  | cpuLimits => exact ⟨CpuDocument.wellSpelled_encode, CpuDocument.decode?_encode⟩
  | ioLimits => exact ⟨IoDocument.wellSpelled_encode, IoDocument.decode?_encode⟩
  | license => exact ⟨LicenseDocument.wellSpelled_encode, LicenseDocument.decode?_encode⟩

/-- What is sent as the document of a resource is read as that document. -/
theorem Schema.LawfulCodec.spelled?_payload {S : Schema} (h : S.LawfulCodec) (d : S.Document) :
    spelled? S.decode? (Client.payload (S.encode d)) = some d := by
  simp [spelled?, Client.payload, parse?_pretty (h.wellSpelled d), h.decode?_encode]

/-- Without indentation it is the same document. -/
theorem Schema.LawfulCodec.spelled?_compact {S : Schema} (h : S.LawfulCodec) (d : S.Document) :
    spelled? S.decode? (Utf8.encode (S.encode d).compact) = some d := by
  simp [spelled?, parse?_compact (h.wellSpelled d), h.decode?_encode]

/-- Whoever answers with a document by its JSON text, indented or not, has it understood. A body
that is understood says the same when it is spelled anew, and one that is not fails as it did. -/
theorem Kind.documents_respelled (k : Kind) (path : String) :
    (∀ (d : k.schema.Document) (status : UInt16),
      decodeBody path k.schema.decode? ⟨status, Client.payload (k.schema.encode d)⟩ = .ok d ∧
      decodeBody path k.schema.decode? ⟨status, Utf8.encode (k.schema.encode d).compact⟩ = .ok d) ∧
    ∀ response : Response,
      (decodeBody path k.schema.decode? response >>= fun d =>
        decodeBody path k.schema.decode?
          { response with body := Client.payload (k.schema.encode d) }) =
        decodeBody path k.schema.decode? response ∧
      (decodeBody path k.schema.decode? response >>= fun d =>
        decodeBody path k.schema.decode?
          { response with body := Utf8.encode (k.schema.encode d).compact }) =
        decodeBody path k.schema.decode? response := by
  have hpayload (d : k.schema.Document) (status : UInt16) :
      decodeBody path k.schema.decode? ⟨status, Client.payload (k.schema.encode d)⟩ = .ok d :=
    decodeBody_eq_ok_iff.2 (k.lawfulCodec.spelled?_payload d)
  have hcompact (d : k.schema.Document) (status : UInt16) :
      decodeBody path k.schema.decode? ⟨status, Utf8.encode (k.schema.encode d).compact⟩ = .ok d :=
    decodeBody_eq_ok_iff.2 (k.lawfulCodec.spelled?_compact d)
  refine ⟨fun d status => ⟨hpayload d status, hcompact d status⟩, fun response => ?_⟩
  cases decodeBody path k.schema.decode? response with
  | error e => exact ⟨rfl, rfl⟩
  | ok d =>
    simp only [bind, Except.bind]
    exact ⟨hpayload d response.status, hcompact d response.status⟩

end Reconciler
