import NetlinkFamily.Proofs.RoundTrip.Messages

namespace NetlinkFamily.Family

open Outcome

/-- A request holds only members that are allowed in it. -/
theorem encodeRequest_eq_ok_iff {family : Family} {operation : String} {mode : OperationMode}
    {message : Message} {data : Bytes} :
    family.encodeRequest operation mode message = .ok data ↔
      ∃ names, family.allowed operation mode .request = .ok names ∧
        (∀ name ∈ message.names, name ∈ names) ∧
        ∃ set, family.setOf operation = .ok set ∧ family.encode set message = .ok data := by
  rw [encodeRequest, bind_eq_ok_iff]
  refine exists_congr fun names => and_congr_right fun _ => ?_
  cases outside : message.names.find? fun name => !names.contains name with
  | some name =>
      have member := List.mem_of_find?_eq_some outside
      have missing := List.find?_some outside
      constructor
      · intro done
        cases done
      · rintro ⟨within, _⟩
        simp [within name member] at missing
  | none =>
      have within : ∀ name ∈ message.names, name ∈ names := by
        simpa using List.find?_eq_none.1 outside
      simp only [bind_eq_ok_iff, CodecError.lift_eq_ok_iff]
      exact ⟨fun done => ⟨within, done⟩, fun both => both.2⟩

/-- Where all attributes can be told apart, an encoded request is accepted exactly if all of its
values pass their policies and it is known of its empty arrays what their entries would be. It is
then decoded to its normal form. -/
theorem decodeOperation_encodeRequest (family : Family) (clear : family.Unambiguous)
    (operation : String) (mode : OperationMode) (message : Message) (data : Bytes)
    (done : family.encodeRequest operation mode message = .ok data) :
    ∃ set attrs, family.setOf operation = .ok set ∧ family.attributeSet set = .ok attrs ∧
      ∀ result, family.decodeOperation .handling operation mode .request data = .ok result ↔
        (message.KnowsArrays family.toScope attrs ∧ message.PassesPolicies family.toScope attrs) ∧
          result = (Rewriting.normal .handling).message family.toScope attrs message := by
  obtain ⟨names, allowed, within, set, used, done⟩ := encodeRequest_eq_ok_iff.1 done
  obtain ⟨attrs, declared, done⟩ := encode_eq_ok_iff.1 done
  have inScope : attrs ∈ family.sets.values :=
    Registry.mem_values_of_get? (Scope.attributeSet_eq_ok_iff.1 declared)
  refine ⟨set, attrs, used, declared, fun result => ?_⟩
  have listed : ∀ list : AllowedList,
      some { operation, direction := .request, names } = some list →
        ∀ name ∈ message.names, name ∈ list.names := by
    rintro list same
    cases same
    exact within
  have read := Decoding.message_encode clear .handling inScope done _ listed result
  simp only [true_imp_iff] at read
  rw [← read, decodeOperation]
  simp only [allowed, used, declared, CodecError.lift, bind, Except.bind]

/-- A request with a code that is too small is refused, and one with a greater code is taken. -/
theorem decodeOperation_encodeRequest_kinds :
    kindsFamily.decodeOperation .handling "set" .call .request kindsStream =
        .ok [("tags", .multi [.text "a", .text "b"]), ("code", .scalar ⟨.u16, 7⟩),
          ("parts", .array [.nest [("label", .text "x")]])] ∧
      ∀ result, kindsFamily.decodeOperation .handling "set" .call .request [6, 0, 2, 0, 0, 3, 0, 0] ≠
        .ok result := by
  have done : kindsFamily.encodeRequest "set" .call kindsMessage = .ok kindsStream := by
    decide +kernel
  have normal : ((kindsFamily.attributeSet "f").toOption.all fun attrs =>
      (kindsMessage.KnowsArrays kindsFamily.toScope attrs ∧
        kindsMessage.PassesPolicies kindsFamily.toScope attrs) ∧
        [("tags", .multi [.text "a", .text "b"]), ("code", .scalar ⟨.u16, 7⟩),
          ("parts", .array [.nest [("label", .text "x")]])] =
        (Rewriting.normal .handling).message kindsFamily.toScope attrs kindsMessage) = true := by
    decide +kernel
  have refused : ((kindsFamily.attributeSet "f").toOption.all fun attrs =>
      ¬ Message.PassesPolicies kindsFamily.toScope attrs [("code", .scalar ⟨.u16, 3⟩)]) = true := by
    decide +kernel
  have small : kindsFamily.encodeRequest "set" .call [("code", .scalar ⟨.u16, 3⟩)] =
      .ok [6, 0, 2, 0, 0, 3, 0, 0] := by decide +kernel
  have used : kindsFamily.setOf "set" = .ok "f" := by decide +kernel
  obtain ⟨set, attrs, uses, declared, read⟩ :=
    decodeOperation_encodeRequest kindsFamily (by decide +kernel) _ _ _ _ done
  obtain ⟨other, others, usesOther, declaredOther, readOther⟩ :=
    decodeOperation_encodeRequest kindsFamily (by decide +kernel) _ _ _ _ small
  cases used.symm.trans uses
  cases used.symm.trans usesOther
  rw [declared] at normal
  rw [declaredOther] at refused
  exact ⟨(read _).2 (of_decide_eq_true normal), fun result taken =>
    of_decide_eq_true refused ((readOther result).1 taken).1.2⟩

/-- A request that breaks no policy may be refused, for an empty array without known entries. -/
theorem not_forall_decodeOperation_encodeRequest :
    ¬∀ (file : Spec.File) (excludes : List Pattern) (family : Family),
      ofSpec file excludes = .ok family → family.Unambiguous →
        ∀ operation mode message data,
          family.encodeRequest operation mode message = .ok data →
          ∃ set attrs, family.setOf operation = .ok set ∧ family.attributeSet set = .ok attrs ∧
            ∀ result, family.decodeOperation .handling operation mode .request data = .ok result ↔
              message.PassesPolicies family.toScope attrs ∧
                result = (Rewriting.normal .handling).message family.toScope attrs message := by
  intro claim
  obtain ⟨set, attrs, uses, declared, read⟩ := claim kinds [] kindsFamily ofSpec_kinds
    (by decide +kernel) "set" .call [("list", .array [])] [4, 0, 1, 128] (by decide +kernel)
  have used : kindsFamily.setOf "set" = .ok "f" := by decide +kernel
  have passes : ((kindsFamily.attributeSet "f").toOption.all fun attrs =>
      Message.PassesPolicies kindsFamily.toScope attrs [("list", .array [])]) = true := by
    decide +kernel
  have failed : (kindsFamily.decodeOperation .handling "set" .call .request
      [4, 0, 1, 128]).isOk = false := by decide +kernel
  cases used.symm.trans uses
  rw [declared] at passes
  rw [(read _).2 ⟨of_decide_eq_true passes, rfl⟩] at failed
  cases failed

end NetlinkFamily.Family
