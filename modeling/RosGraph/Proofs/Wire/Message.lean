import RosGraph.Wire.Message
import RosGraph.Proofs.Wire.Spelling

/-! Announcements and profiles survive being written and read, in every spelling, and nothing but the
spellings of a message is read as it. -/

namespace RosGraph

open Wire

section Scalars

theorem faithful_bool : Faithful Bool .plain :=
  .plain fun {v} {b} => by cases v <;> simp [encode, decode?]

theorem faithful_text : Faithful String .plain :=
  .plain fun {v} {s} => by cases v <;> simp [encode, decode?]

/-- Words are written as their numbers, and read from the numbers below their size. -/
theorem faithful_word {α : Type} [Wire α] {size : Nat} {toNat : α → Nat} {ofNat : Nat → α}
    (hencode : ∀ a : α, encode a = .integer (toNat a))
    (hdecode : ∀ v, (decode? v : Option α) = match v with
      | .integer (.ofNat n) => if n < size then some (ofNat n) else none
      | _ => none)
    (hlt : ∀ a, toNat a < size) (hofNat : ∀ a, ofNat (toNat a) = a)
    (htoNat : ∀ {n}, n < size → toNat (ofNat n) = n) : Faithful α .plain := by
  refine .plain fun {v} {a} => ?_
  rw [hencode, hdecode]
  constructor
  · intro h
    split at h
    · next n =>
      split_ifs at h with hn
      rw [← Option.some.inj h, htoNat hn]
      rfl
    · contradiction
  · rintro rfl
    exact (if_pos (hlt a)).trans (congrArg some (hofNat a))

theorem faithful_byte : Faithful UInt8 .plain :=
  faithful_word (fun _ => rfl) (fun _ => rfl) UInt8.toNat_lt (fun _ => UInt8.ofNat_toNat)
    UInt8.toNat_ofNat_of_lt'

theorem faithful_long : Faithful UInt64 .plain :=
  faithful_word (fun _ => rfl) (fun _ => rfl) UInt64.toNat_lt (fun _ => UInt64.ofNat_toNat)
    UInt64.toNat_ofNat_of_lt'

end Scalars

namespace Qos

theorem faithful_history : Faithful History .enumeration :=
  .enumeration (fun _ => rfl) (fun _ => rfl) (fun p => by cases p <;> simp) (by decide)

theorem faithful_reliability : Faithful Reliability .enumeration :=
  .enumeration (fun _ => rfl) (fun _ => rfl) (fun p => by cases p <;> simp) (by decide)

theorem faithful_durability : Faithful Durability .enumeration :=
  .enumeration (fun _ => rfl) (fun _ => rfl) (fun p => by cases p <;> simp) (by decide)

theorem faithful_liveliness : Faithful Liveliness .enumeration :=
  .enumeration (fun _ => rfl) (fun _ => rfl) (fun p => by cases p <;> simp) (by decide)

end Qos

namespace Gid

def schema : List (String × Schema) := [("data", .list .plain)]

def fields (g : Gid) : List Field := [.of "data" (.list .plain) g.bytes]

theorem isRecord : IsRecord Gid schema fields where
  distinct := by decide
  declared _ := rfl
  written _ := rfl
  reads {v g} := by
    refine fields?_bind_eq_some_iff g.fields fun items => ⟨fun h => ?_, fun h => ?_⟩
    · split at h
      · next data =>
        obtain ⟨bytes, hbytes, h⟩ := Option.bind_eq_some_iff.1 h
        split_ifs at h with hlength
        obtain rfl := Option.some.inj h
        exact .cons hbytes .nil
      · contradiction
    · match items, h with
      | [data], .cons hdata .nil =>
        simp only [Field.of] at hdata
        simp [hdata, g.length_bytes]
  sound g := by
    simp only [fields, List.forall_mem_cons]
    exact ⟨faithful_byte.list.field _ _, List.forall_mem_nil _⟩

end Gid

namespace Period

def schema : List (String × Schema) := [("sec", .plain), ("nsec", .plain)]

def fields (p : Period) : List Field := [.of "sec" .plain p.sec, .of "nsec" .plain p.nsec]

theorem isRecord : IsRecord Period schema fields where
  distinct := by decide
  declared _ := rfl
  written _ := rfl
  reads {v p} := by
    refine fields?_bind_eq_some_iff p.fields fun items => ⟨fun h => ?_, fun h => ?_⟩
    · split at h
      · simp only [Option.bind_eq_bind, Option.bind_eq_some_iff, Option.some.injEq] at h
        obtain ⟨sec, hsec, nsec, hnsec, rfl⟩ := h
        exact .cons hsec (.cons hnsec .nil)
      · contradiction
    · match items, h with
      | [sec, nsec], .cons hsec (.cons hnsec .nil) =>
        simp only [Field.of] at hsec hnsec
        simp [hsec, hnsec]
  sound p := by
    simp only [fields, List.forall_mem_cons]
    exact ⟨faithful_long.field _ _, faithful_long.field _ _, List.forall_mem_nil _⟩

end Period

namespace Qos.Profile

def schema : List (String × Schema) :=
  Profile.fieldNames.zip [.enumeration, .plain, .enumeration, .enumeration, .record Period.schema,
    .record Period.schema, .enumeration, .record Period.schema, .plain]

def fields (p : Profile) : List Field :=
  [.of "history" .enumeration p.history, .of "depth" .plain p.depth,
    .of "reliability" .enumeration p.reliability, .of "durability" .enumeration p.durability,
    .of "deadline" (.record Period.schema) p.deadline, .of "lifespan" (.record Period.schema) p.lifespan,
    .of "liveliness" .enumeration p.liveliness,
    .of "liveliness_lease_duration" (.record Period.schema) p.lease,
    .of "avoid_ros_namespace_conventions" .plain p.avoidsNamespaceConventions]

theorem isRecord : IsRecord Profile schema fields where
  distinct := by decide
  declared _ := rfl
  written _ := rfl
  reads {v p} := by
    refine fields?_bind_eq_some_iff p.fields fun items => ⟨fun h => ?_, fun h => ?_⟩
    · split at h
      · simp only [Option.bind_eq_bind, Option.bind_eq_some_iff, Option.some.injEq] at h
        obtain ⟨history, h₁, depth, h₂, reliability, h₃, durability, h₄, deadline, h₅, lifespan, h₆,
          liveliness, h₇, lease, h₈, avoids, h₉, rfl⟩ := h
        exact .cons h₁ (.cons h₂ (.cons h₃ (.cons h₄ (.cons h₅ (.cons h₆ (.cons h₇ (.cons h₈ (.cons h₉
          .nil))))))))
      · contradiction
    · simp only [fields] at h
      rcases h with _ | ⟨h₁, _ | ⟨h₂, _ | ⟨h₃, _ | ⟨h₄, _ | ⟨h₅, _ | ⟨h₆, _ | ⟨h₇, _ | ⟨h₈, _ | ⟨h₉, _ | _⟩⟩⟩⟩⟩⟩⟩⟩⟩
      simp only [Field.of] at h₁ h₂ h₃ h₄ h₅ h₆ h₇ h₈ h₉
      simp [h₁, h₂, h₃, h₄, h₅, h₆, h₇, h₈, h₉]
  sound p := by
    have hperiod := Period.isRecord.faithful
    simp only [fields, List.forall_mem_cons]
    exact ⟨faithful_history.field _ _, faithful_long.field _ _, faithful_reliability.field _ _,
      faithful_durability.field _ _, hperiod.field _ _, hperiod.field _ _, faithful_liveliness.field _ _,
      hperiod.field _ _, faithful_bool.field _ _, List.forall_mem_nil _⟩

end Qos.Profile

namespace HostedNode

def schema : List (String × Schema) :=
  [("node_name", .plain), ("node_namespace", .plain), ("reader_gids", .list (.record Gid.schema)),
    ("writer_gids", .list (.record Gid.schema))]

def fields (n : HostedNode) : List Field :=
  [.of "node_name" .plain n.id.name, .of "node_namespace" .plain n.id.ns,
    .of "reader_gids" (.list (.record Gid.schema)) n.readers,
    .of "writer_gids" (.list (.record Gid.schema)) n.writers]

theorem isRecord : IsRecord HostedNode schema fields where
  distinct := by decide
  declared _ := rfl
  written _ := rfl
  reads {v n} := by
    refine fields?_bind_eq_some_iff n.fields fun items => ⟨fun h => ?_, fun h => ?_⟩
    · split at h
      · simp only [Option.bind_eq_bind, Option.bind_eq_some_iff, Option.some.injEq] at h
        obtain ⟨name, hname, ns, hns, readers, hreaders, writers, hwriters, rfl⟩ := h
        exact .cons hname (.cons hns (.cons hreaders (.cons hwriters .nil)))
      · contradiction
    · match items, h with
      | [_, _, _, _], .cons hname (.cons hns (.cons hreaders (.cons hwriters .nil))) =>
        simp only [Field.of] at hname hns hreaders hwriters
        simp [hname, hns, hreaders, hwriters]
  sound n := by
    have hgids := Gid.isRecord.faithful.list
    simp only [fields, List.forall_mem_cons]
    exact ⟨faithful_text.field _ _, faithful_text.field _ _, hgids.field _ _, hgids.field _ _, List.forall_mem_nil _⟩

end HostedNode

namespace Announcement

def schema : List (String × Schema) :=
  [("gid", .record Gid.schema), ("nodes", .list (.record HostedNode.schema))]

def fields (a : Announcement) : List Field :=
  [.of "gid" (.record Gid.schema) a.participant, .of "nodes" (.list (.record HostedNode.schema)) a.nodes]

theorem isRecord : IsRecord Announcement schema fields where
  distinct := by decide
  declared _ := rfl
  written _ := rfl
  reads {v a} := by
    refine fields?_bind_eq_some_iff a.fields fun items => ⟨fun h => ?_, fun h => ?_⟩
    · split at h
      · simp only [Option.bind_eq_bind, Option.bind_eq_some_iff, Option.some.injEq] at h
        obtain ⟨participant, hparticipant, nodes, hnodes, rfl⟩ := h
        exact .cons hparticipant (.cons hnodes .nil)
      · contradiction
    · match items, h with
      | [_, _], .cons hparticipant (.cons hnodes .nil) =>
        simp only [Field.of] at hparticipant hnodes
        simp [hparticipant, hnodes]
  sound a := by
    simp only [fields, List.forall_mem_cons]
    exact ⟨Gid.isRecord.faithful.field _ _, HostedNode.isRecord.faithful.list.field _ _, List.forall_mem_nil _⟩

end Announcement

/-- Announcements and profiles survive, and so does each record in them. An enumeration is no record:
in its object form no further field can be given. -/
theorem messages_survive :
    Survives Announcement (.record Announcement.schema) ∧ Survives HostedNode (.record HostedNode.schema) ∧
      Survives Gid (.record Gid.schema) ∧ Survives Qos.Profile (.record Qos.Profile.schema) ∧
      Survives Period (.record Period.schema) :=
  ⟨Announcement.isRecord.faithful.survives, HostedNode.isRecord.faithful.survives,
    Gid.isRecord.faithful.survives, Qos.Profile.isRecord.faithful.survives,
    Period.isRecord.faithful.survives⟩

/-- A participant with one node: the identifier and the node as the lists of their fields, and a field
that the record does not have. -/
theorem messages_survive_mixed : decode? (.object [("version", .integer 2),
      ("gid", .list [encode Gid.zero.bytes]),
      ("nodes", .list [.list [.text "talker", .text "/demo", .list [], .list []]])]) =
    some (⟨Gid.zero, [{ id := { name := "talker", ns := "/demo" } }]⟩ : Announcement) := by
  let node : HostedNode := { id := { name := "talker", ns := "/demo" } }
  have hgid : Respelled (.record Announcement.schema) (encode (⟨Gid.zero, [node]⟩ : Announcement))
      (.object [("gid", .list [encode Gid.zero.bytes]), ("nodes", .list [encode node])]) :=
    @Respelled.inField _ _ _ _ _ [] _ (.head _) (.fieldList (.cons rfl .nil))
  have hnode : Respelled (.list (.record HostedNode.schema)) (.list [encode node])
      (.list [.list [.text "talker", .text "/demo", .list [], .list []]]) :=
    @Respelled.inList _ _ _ [] [] (.fieldList (by
      simp [HostedNode.schema, encode, node, List.lookup_cons]))
  have hnodes := @Respelled.inField Announcement.schema "nodes" _ _ _
    [("gid", .list [encode Gid.zero.bytes])] [] (.tail _ (.head _)) hnode
  have hversion : Respelled (.record Announcement.schema)
      (.object [("gid", .list [encode Gid.zero.bytes]),
        ("nodes", .list [.list [.text "talker", .text "/demo", .list [], .list []]])])
      (.object [("version", .integer 2), ("gid", .list [encode Gid.zero.bytes]),
        ("nodes", .list [.list [.text "talker", .text "/demo", .list [], .list []]])]) :=
    @Respelled.unknownField _ _ _ [] _ (by decide)
  have hsurvives := messages_survive.1
  rw [← hsurvives.any_spelling (.tail (.tail (.single hgid) hnodes) hversion)]
  exact hsurvives.reads_back _

end RosGraph
