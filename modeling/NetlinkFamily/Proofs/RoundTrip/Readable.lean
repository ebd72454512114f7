import NetlinkFamily.Proofs.Decoding.Reading
import NetlinkFamily.Proofs.Message.NormalForm
import NetlinkFamily.Proofs.Message.Parts

namespace NetlinkFamily

/-- Whether the check of a policy passes. A text is sent with a zero byte behind it. -/
def WirePolicy.accepts (policy : WirePolicy) : Value → Bool
  | .scalar number => (policy.checkScalar (.scalar number)).isOk
  | .text content => (policy.checkText (Bytes.ofText content ++ [0])).isOk
  | .binary bytes => (policy.checkBinary bytes).isOk
  | _ => true

namespace Attribute

/-- Whether a value passes the policy of its attribute. Only scalars, texts and binary data are
held against a policy, which must exist then. -/
def accepts (constants : Registry Constant) (attr : Attribute) (value : Value) : Bool :=
  match value with
  | .scalar _ | .text _ | .binary _ =>
      match attr.wirePolicy constants with
      | .ok policy => policy.all fun rule => rule.accepts value
      | .error _ => false
  | _ => true

/-- Whether it is known what the entries of an array are: scalars, or nests of a declared set. -/
def knowsEntries (scope : Scope) (attr : Attribute) : Bool :=
  attr.entryScalar?.isSome || (attr.contents scope).isOk

/-- An array of scalars knows its entries. -/
theorem knowsEntries_of_scalars {scope : Scope} {attr : Attribute} {type : ScalarType}
    (scalars : attr.entryScalar? = some type) : attr.knowsEntries scope = true := by
  rw [knowsEntries, scalars, Option.isSome_some, Bool.true_or]

/-- For the entries of an array of nests, their set must be known. -/
theorem knowsEntries_of_nests {scope : Scope} {attr : Attribute}
    (nests : attr.entryScalar? = none) :
    attr.knowsEntries scope = (attr.contents scope).isOk := by
  rw [knowsEntries, nests, Option.isSome_none, Bool.false_or]

end Attribute

/-- Whether no array occurs more than once among the members of a nest. -/
def Value.repeatsNoArray (scope : Scope) (attr : Attribute) (value : Value) : Bool :=
  match value, attr.contents scope with
  | .nest members, .ok set => decide (Message.SingleArrays set members)
  | _, _ => true

/-- A nest repeats no array where its members do not. -/
theorem Value.repeatsNoArray_nest {scope : Scope} {attr : Attribute} {set : AttributeSet}
    (inner : attr.contents scope = .ok set) (members : Message) :
    (Value.nest members).repeatsNoArray scope attr = true ↔ members.SingleArrays set := by
  simp only [repeatsNoArray, inner, decide_eq_true_iff]

namespace Decoding

open Outcome

variable {scope : Scope} {peer : Peer} {attr : Attribute}

/-- A peer reads a value if it knows what the entries of the array are, should it be an empty one,
if the value holds no array twice, and if it passes the policy, should the peer be the handling
one. -/
structure Readable (scope : Scope) (peer : Peer) (part : Attribute × Value) : Prop where
  entries : part.2 = .array [] → part.1.knowsEntries scope = true
  once : part.2.repeatsNoArray scope part.1 = true
  accepted : peer = .handling → part.1.accepts scope.constants part.2 = true

/-- An array is readable unless it is empty and does not know its entries. -/
theorem readable_array_iff {entries : List Value} :
    Readable scope peer (attr, .array entries) ↔
      (entries = [] → attr.knowsEntries scope = true) := by
  constructor
  · rintro ⟨known, _, _⟩ rfl
    exact known rfl
  · intro known
    exact ⟨fun same => known (Value.array.inj same), rfl, fun _ => rfl⟩

/-- A nest is readable when no array is repeated in it. -/
theorem readable_nest_iff {set : AttributeSet} (inner : attr.contents scope = .ok set)
    {members : Message} : Readable scope peer (attr, .nest members) ↔ members.SingleArrays set := by
  rw [← Value.repeatsNoArray_nest inner]
  exact ⟨Readable.once, fun once => ⟨by simp, once, fun _ => rfl⟩⟩

/-- What a peer makes of a payload: the normal form of a value whose parts are all readable, and
nothing otherwise. -/
def ReadsAs (scope : Scope) (peer : Peer) (attr : Attribute) (payload : Bytes) (value : Value) :
    Prop :=
  ∀ result, Decoding.value scope peer attr payload = .ok result ↔
    (∀ part ∈ value.parts scope attr, Readable scope peer part) ∧
      result = (Rewriting.normal peer).value scope attr value

/-- A value passes the check of the peer if its policy accepts it or the peer does not ask. -/
theorem exists_policyOf_iff {value : Value}
    (asked : policyOf scope .handling attr = CodecError.lift (attr.wirePolicy scope.constants))
    (judged : attr.accepts scope.constants value =
      match attr.wirePolicy scope.constants with
      | .ok policy => policy.all fun rule => rule.accepts value
      | .error _ => false) :
    (∃ policy, policyOf scope peer attr = .ok policy ∧
        policy.all (fun rule => rule.accepts value) = true) ↔
      (peer = .handling → attr.accepts scope.constants value = true) := by
  cases peer with
  | originating => simp [policyOf]
  | handling =>
      rw [asked, judged]
      cases attr.wirePolicy scope.constants <;> simp [CodecError.lift]

/-- A scalar is read back where its policy accepts it. -/
theorem leaf_scalar {number : Scalar} (kind : attr.kind = .scalar number.type) {result : Value} :
    leaf scope peer attr (number.toBytes attr.isBigEndian) = .ok result ↔
      (peer = .handling → attr.accepts scope.constants (.scalar number) = true) ∧
        result = .scalar number := by
  have read : readScalar attr number.type (number.toBytes attr.isBigEndian) =
      .ok (.scalar number) := by
    rw [readScalar_eq_ok_iff, Scalar.ofBytes_toBytes]
    exact ⟨number.length_toBytes _, rfl⟩
  rw [← exists_policyOf_iff (by simp [policyOf, kind]) rfl, ← exists_and_right]
  simp only [leaf, kind, read, bind_eq_ok_iff, Except.ok.injEq, exists_eq_left', and_assoc]
  exact exists_congr fun policy => and_congr_right fun _ => check_eq_ok_iff

/-- A flag is read back where its policy accepts it. -/
theorem leaf_flag (kind : attr.kind = .flag) {result : Value} :
    leaf scope peer attr [] = .ok result ↔
      (peer = .handling → attr.accepts scope.constants .flag = true) ∧ result = .flag := by
  have unasked : policyOf scope peer attr = .ok none := by
    cases peer <;> simp [policyOf, kind]
  have accepted : attr.accepts scope.constants .flag = true := rfl
  simp only [leaf, kind, unasked, bind_eq_ok_iff, Except.ok.injEq, exists_eq_left', List.isEmpty_nil,
    if_true, accepted, implies_true, true_and]
  exact (pure_eq_ok_iff _ _).trans eq_comm

/-- Binary data is read back where its policy accepts it. -/
theorem leaf_binary {bytes : Bytes} (kind : attr.kind = .binary) {result : Value} :
    leaf scope peer attr bytes = .ok result ↔
      (peer = .handling → attr.accepts scope.constants (.binary bytes) = true) ∧
        result = .binary bytes := by
  rw [← exists_policyOf_iff (by simp [policyOf, kind]) rfl, ← exists_and_right]
  simp only [leaf, kind, bind_eq_ok_iff, and_assoc]
  exact exists_congr fun policy => and_congr_right fun _ => check_eq_ok_iff

/-- The terminator that the encoder adds is taken off again. A text that must be terminated also
loses what follows its first NUL character. -/
theorem textContent_ofText (attr : Attribute) (content : String) :
    WirePolicy.textContent (!attr.mayLackTerminator) (Bytes.ofText content ++ [0]) =
      .ok (Bytes.ofText ((Rewriting.normal .handling).text attr content)) := by
  cases lacks : attr.mayLackTerminator with
  | true => simp [WirePolicy.textContent, Rewriting.normal, lacks]
  | false =>
      have cut := Bytes.untilZero_ofText_append content [0] rfl
      simp [WirePolicy.textContent, Rewriting.normal, lacks, cut]

/-- A check that is passed gives the content of the text. -/
theorem checkText_eq_ok_iff {terminated : Bool} {maxLength : Option UInt64}
    {payload content result : Bytes} (found : WirePolicy.textContent terminated payload = .ok content) :
    WirePolicy.checkText (.text terminated maxLength) payload = .ok result ↔
      (WirePolicy.checkText (.text terminated maxLength) payload).isOk = true ∧ result = content := by
  simp only [WirePolicy.checkText, found, bind, Except.bind]
  cases maxLength with
  | none => simp [Except.isOk, Except.toBool, pure, Except.pure, eq_comm]
  | some most =>
      dsimp only
      split
      · simp [throw, throwThe, MonadExceptOf.throw, Except.isOk, Except.toBool]
      · simp [Except.isOk, Except.toBool, pure, Except.pure, eq_comm]

/-- A text is read back in its normal form where its policy accepts it. -/
theorem leaf_text {content : String} (kind : attr.kind = .text) {result : Value} :
    leaf scope peer attr (Bytes.ofText content ++ [0]) = .ok result ↔
      (peer = .handling → attr.accepts scope.constants (.text content) = true) ∧
        result = .text ((Rewriting.normal peer).text attr content) := by
  simp only [leaf, kind, bind_eq_ok_iff]
  cases peer with
  | originating =>
      have cut := Bytes.untilZero_ofText_append content [0] rfl
      simp only [policyOf, Except.ok.injEq, exists_eq_left', readText, pure_bind, cut,
        Bytes.toText?_ofText, reduceCtorEq, false_imp_iff, true_and]
      exact (pure_eq_ok_iff _ _).trans eq_comm
  | handling =>
      have policyIs : attr.wirePolicy scope.constants =
          .ok (some (.text (!attr.mayLackTerminator) attr.checks.maxLength)) := by
        simp [Attribute.wirePolicy, kind, Attribute.mayLackTerminator]
      have accepts : attr.accepts scope.constants (.text content) =
          (WirePolicy.checkText (.text (!attr.mayLackTerminator) attr.checks.maxLength)
            (Bytes.ofText content ++ [0])).isOk := by
        simp only [Attribute.accepts, policyIs]
        rfl
      have asked : policyOf scope .handling attr =
          .ok (some (.text (!attr.mayLackTerminator) attr.checks.maxLength)) := by
        simp [policyOf, kind, policyIs, CodecError.lift]
      simp only [asked, Except.ok.injEq, exists_eq_left', readText, bind_eq_ok_iff,
        checked_eq_ok_iff, checkText_eq_ok_iff (textContent_ofText attr content), accepts,
        true_imp_iff]
      constructor
      · rintro ⟨_, ⟨done, rfl⟩, read⟩
        simp only [Bytes.toText?_ofText] at read
        exact ⟨done, ((pure_eq_ok_iff _ _).1 read).symm⟩
      · rintro ⟨done, rfl⟩
        refine ⟨_, ⟨done, rfl⟩, ?_⟩
        simp only [Bytes.toText?_ofText]
        rfl

end Decoding

end NetlinkFamily
