import NetlinkFamily.Proofs.Wire.Segments

namespace NetlinkFamily.Stream

/-- An attribute to be written: a payload, or a nest of attributes. -/
inductive Tree where
  | leaf (type : UInt16) (payload : Bytes)
  | nest (type : UInt16) (children : List Tree)

namespace Tree

mutual

/-- The buffer with an attribute behind it, unless some length does not fit its header. -/
def write? (buffer : Bytes) (tree : Tree) : Option Bytes :=
  match tree with
  | .leaf type payload => put? buffer type payload
  | .nest type children => do
      let filled ← writeAll? (openNest buffer type) children
      closeNest? filled buffer.length
termination_by structural tree

/-- The buffer with attributes behind it, one after the other. -/
def writeAll? (buffer : Bytes) (forest : List Tree) : Option Bytes :=
  match forest with
  | [] => some buffer
  | tree :: rest => do
      let filled ← write? buffer tree
      writeAll? filled rest
termination_by structural forest

end

mutual

/-- An attribute as it is split off where it was written. The type of a nest is marked, whatever
its highest bit was. -/
inductive ReadsAs : Tree → RawAttribute → Prop where
  | leaf {type : UInt16} {payload : Bytes} :
      ReadsAs (.leaf type payload) (RawAttribute.ofField type payload)
  | nest {type : UInt16} {children : List Tree} {payload : Bytes}
      (inner : AllReadAs children payload) :
      ReadsAs (.nest type children) { type := (type &&& 0x3fff).toNat, nested := true, payload }

/-- A stream is split into attributes as they were written, in order. -/
inductive AllReadAs : List Tree → Bytes → Prop where
  | intro {forest : List Tree} {data : Bytes} {raws : List RawAttribute}
      (parted : split data = .ok raws) (count : raws.length = forest.length)
      (each : ∀ pair ∈ forest.zip raws, ReadsAs pair.1 pair.2) :
      AllReadAs forest data

end

/-- Induction over trees. What holds of a nest may be shown from what holds of its children. -/
@[elab_as_elim]
theorem induction {motive : Tree → Prop}
    (leaf : ∀ type payload, motive (.leaf type payload))
    (nest : ∀ type children, (∀ child ∈ children, motive child) → motive (.nest type children))
    (tree : Tree) : motive tree := by
  apply Tree.rec (motive_1 := motive) (motive_2 := fun forest => ∀ tree ∈ forest, motive tree)
  · exact leaf
  · exact nest
  · simp
  · exact fun first rest here later => List.forall_mem_cons.2 ⟨here, later⟩

/-- A forest is read where the stream holds what its trees are read as. -/
theorem allReadAs_of_holds {forest : List Tree} {data : Bytes} {raws : List RawAttribute}
    (holds : Holds data raws) (each : List.Forall₂ ReadsAs forest raws) :
    AllReadAs forest data :=
  .intro holds.split each.length_eq.symm fun _ member => (List.forall₂_iff_zip.1 each).2 member

/-- A tree is written as one attribute behind what is there, and is read as such. -/
def IsWritten (tree : Tree) : Prop :=
  ∀ buffer out, 4 ∣ buffer.length → write? buffer tree = some out → ∃ field payload,
    out = buffer ++ frame field payload ∧ headerLength + payload.length ≤ maxLength ∧
      ReadsAs tree (rawOf field payload)

/-- A forest is written as a stream behind what is there. -/
theorem exists_stream {forest : List Tree} (each : ∀ tree ∈ forest, IsWritten tree)
    {buffer out : Bytes} (aligned : 4 ∣ buffer.length)
    (written : writeAll? buffer forest = some out) :
    ∃ stream raws, out = buffer ++ stream ∧ Holds stream raws ∧
      List.Forall₂ ReadsAs forest raws := by
  induction forest generalizing buffer with
  | nil =>
      rw [writeAll?, Option.some.injEq] at written
      exact ⟨[], [], by rw [← written, List.append_nil], .nil, .nil⟩
  | cons tree rest ih =>
      obtain ⟨here, later⟩ := List.forall_mem_cons.1 each
      simp only [writeAll?, Option.bind_eq_bind, Option.bind_eq_some_iff] at written
      obtain ⟨filled, first, written⟩ := written
      obtain ⟨field, payload, rfl, fits, read⟩ := here buffer filled aligned first
      have behind : 4 ∣ (buffer ++ frame field payload).length := by
        rw [List.length_append, length_frame]
        exact Nat.dvd_add aligned (Nat.dvd_mul_left _ _)
      obtain ⟨stream, raws, rfl, holds, reads⟩ := ih later behind written
      refine ⟨frame field payload ++ stream, rawOf field payload :: raws, ?_, ?_, .cons read reads⟩
      · rw [List.append_assoc]
      · exact (Holds.frame fits).append holds

/-- By induction on the tree. The header of a nest is four bytes, so that its children are written
at a multiple of four bytes, too. -/
theorem isWritten (tree : Tree) : IsWritten tree := by
  induction tree using induction with
  | leaf type payload =>
      intro buffer out aligned written
      rw [write?, put?_aligned aligned, Option.ite_none_right_eq_some] at written
      obtain ⟨fits, same⟩ := written
      refine ⟨type, payload, (Option.some.inj same).symm, fits, ?_⟩
      rw [rawOf_eq_ofField]
      exact .leaf
  | nest type children ih =>
      intro buffer out aligned written
      simp only [write?, Option.bind_eq_bind, Option.bind_eq_some_iff] at written
      obtain ⟨filled, inside, closed⟩ := written
      have opened : 4 ∣ (openNest buffer type).length := by
        simp only [openNest, header, List.length_append, Bytes.length_ofNat]
        omega
      obtain ⟨inner, raws, rfl, holds, reads⟩ := exists_stream ih opened inside
      rw [closeNest?_aligned aligned, Option.ite_none_right_eq_some] at closed
      obtain ⟨fits, same⟩ := closed
      refine ⟨type ||| nestedFlag, inner, (Option.some.inj same).symm, fits, ?_⟩
      rw [rawOf_nested, ← toNat_and_mask]
      exact .nest (allReadAs_of_holds holds reads)

/-- If all attributes of a forest are written, depth first and into one buffer, then the buffer is
split into them in their order: leaves under their fields with their payloads, and nests marked as
such around streams that are split into their children in the same way, at every depth. -/
theorem split_writeAll {forest : List Tree} {data : Bytes}
    (written : writeAll? [] forest = some data) : AllReadAs forest data := by
  obtain ⟨stream, raws, rfl, holds, reads⟩ :=
    exists_stream (fun tree _ => isWritten tree) (by simp) written
  exact allReadAs_of_holds holds reads

/-- Leaves and nests with and without the bits of their types that are masked, and a payload with a
gap behind it in a nest. -/
def grove : List Tree :=
  [.nest 5 [.leaf 1 [0, 0, 0, 0], .nest 0xc006 [.leaf 0x8001 [7]]], .leaf 0x4003 [9]]

/-- The bytes of a small forest. -/
def groveStream : Bytes :=
  [24, 0, 5, 128, 8, 0, 1, 0, 0, 0, 0, 0, 12, 0, 6, 192, 5, 0, 1, 128, 7, 0, 0, 0,
    5, 0, 3, 64, 9, 0, 0, 0]

/-- That forest is written as those bytes, which read back. -/
theorem split_grove : writeAll? [] grove = some groveStream ∧ AllReadAs grove groveStream := by
  have written : writeAll? [] grove = some groveStream := by decide +kernel
  exact ⟨written, split_writeAll written⟩

end Tree

end NetlinkFamily.Stream
