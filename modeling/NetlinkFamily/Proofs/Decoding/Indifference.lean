import Mathlib.Data.List.Nodup
import NetlinkFamily.Proofs.Decoding.Reading
import NetlinkFamily.Proofs.Message.Value
import NetlinkFamily.Proofs.Wire.Padding

namespace NetlinkFamily

namespace Decoding

open Outcome

/-- What the attributes of a stream are to the decoder: the attributes of a set, or the entries of
an array. -/
inductive Layer where
  | members (set : AttributeSet)
  | entries (array : Attribute)

/-- The stream inside the payload of an attribute, if the decoder goes there. -/
def layerOf (scope : Scope) (attr : Attribute) : Option Layer :=
  match attr.kind with
  | .nest => (attr.contents scope).toOption.map .members
  | .arrayNest => some (.entries attr)
  | _ => none

namespace Layer

/-- The stream inside the payload of an attribute of this type. -/
def inside (scope : Scope) (layer : Layer) (type : Nat) : Option Layer :=
  match layer with
  | .members set => (set.withNumber? type).bind (layerOf scope)
  | .entries array =>
      if array.entryScalar?.isSome then none
      else (array.contents scope).toOption.map .members

/-- Whether two type fields say the same. Those of entries say nothing. -/
def SameType (layer : Layer) (first second : UInt16) : Prop :=
  match layer with
  | .members _ => first.toNat % Stream.typeBound = second.toNat % Stream.typeBound
  | .entries _ => True

end Layer

/-- Payloads that are alike to the decoder. Where it does not go, they must be the same. Otherwise
they are streams of attributes of the same lengths and types, alike inside, and with any bytes in
between. The bytes behind a header that announces too much, or too little, must be the same. -/
inductive Alike (scope : Scope) : Option Layer → Bytes → Bytes → Prop where
  | same {layer : Option Layer} (data : Bytes) : Alike scope layer data data
  | next {layer : Layer} {field otherField : UInt16}
      {payload otherPayload fill otherFill rest otherRest : Bytes}
      (fits : Stream.headerLength + payload.length ≤ Stream.maxLength)
      (fills : Stream.Fills payload fill rest) (filled : otherFill.length = fill.length)
      (types : layer.SameType field otherField)
      (inside : Alike scope (layer.inside scope (field.toNat % Stream.typeBound))
        payload otherPayload)
      (behind : Alike scope (some layer) rest otherRest) :
      Alike scope (some layer) (Stream.placed field payload fill rest)
        (Stream.placed otherField otherPayload otherFill otherRest)
  | broken {layer : Layer} {length : Nat} {field otherField : UInt16} {tail : Bytes}
      (small : length ≤ Stream.maxLength)
      (bad : length < Stream.headerLength ∨ tail.length < length - Stream.headerLength)
      (types : layer.SameType field otherField) :
      Alike scope (some layer) (Stream.header length field ++ tail)
        (Stream.header length otherField ++ tail)

variable {scope : Scope}

/-- Streams that are alike have one length. -/
theorem Alike.length_eq {layer : Option Layer} {first second : Bytes}
    (alike : Alike scope layer first second) : second.length = first.length := by
  induction alike with
  | same data => rfl
  | next fits fills filled types inside behind payloads rests =>
      simp only [Stream.placed, Stream.header, List.length_append, Bytes.length_ofNat, payloads,
        rests, filled]
  | broken small bad types => simp [Stream.header]

/-- Where the decoder does not go, nothing may differ. -/
theorem Alike.eq_of_none {first second : Bytes} (alike : Alike scope none first second) :
    first = second := by
  cases alike with
  | same data => rfl

/-- Attributes that are alike to the decoder. -/
structure RawAlike (scope : Scope) (layer : Layer) (first second : RawAttribute) : Prop where
  type : ∀ set, layer = .members set → first.type = second.type
  payload : Alike scope (layer.inside scope first.type) first.payload second.payload

/-- An attribute is like itself. -/
theorem RawAlike.refl (layer : Layer) (raw : RawAttribute) : RawAlike scope layer raw raw :=
  ⟨fun _ _ => rfl, .same raw.payload⟩

/-- Attributes of one type are alike where their payloads are. -/
theorem rawAlike_rawOf {layer : Layer} {field otherField : UInt16} {payload otherPayload : Bytes}
    (types : layer.SameType field otherField)
    (inside : Alike scope (layer.inside scope (field.toNat % Stream.typeBound))
      payload otherPayload) :
    RawAlike scope layer (Stream.rawOf field payload) (Stream.rawOf otherField otherPayload) where
  type := by
    rintro set rfl
    exact types
  payload := inside

/-- One stream is split alike behind alike attributes. -/
theorem splitFrom_same {layer : Layer} {offset : Nat} {data : Bytes}
    {read otherRead : List RawAttribute}
    (before : List.Forall₂ (RawAlike scope layer) read otherRead) :
    Paired (List.Forall₂ (RawAlike scope layer)) (Stream.splitFrom offset data read)
      (Stream.splitFrom offset data otherRead) := by
  rcases Stream.splitFrom_read offset data read with ⟨truncation, fails⟩ | ⟨found, done⟩
  · rw [fails, fails]
    exact .failed truncation
  · rw [done, done]
    exact .done (List.rel_append (List.forall₂_reverse_iff.2 before)
      (List.forall₂_same.2 fun raw _ => .refl layer raw))

/-- Alike streams are split into alike attributes, or not at all for the same reason. -/
theorem splitFrom_alike {layer : Layer} {first second : Bytes}
    (alike : Alike scope (some layer) first second) (offset : Nat)
    {read otherRead : List RawAttribute}
    (before : List.Forall₂ (RawAlike scope layer) read otherRead) :
    Paired (List.Forall₂ (RawAlike scope layer)) (Stream.splitFrom offset first read)
      (Stream.splitFrom offset second otherRead) := by
  generalize placed : some layer = place at alike
  induction alike generalizing offset read otherRead with
  | same data => exact splitFrom_same before
  | @next other field otherField payload otherPayload fill otherFill rest otherRest fits fills
      filled types inside behind _ ih =>
      obtain rfl : layer = other := Option.some.inj placed
      have payloads := inside.length_eq
      have otherFills : Stream.Fills otherPayload otherFill otherRest :=
        ⟨by rw [payloads, filled]; exact fills.within, fun short => by
          rw [payloads, filled] at short
          have rests := behind.length_eq
          rw [fills.ends short, List.length_nil, List.length_eq_zero_iff] at rests
          exact rests⟩
      rw [Stream.splitFrom_filled fits fills, Stream.splitFrom_filled (payloads ▸ fits) otherFills,
        payloads]
      exact ih _ (.cons (rawAlike_rawOf types inside) before) rfl
  | broken small bad types =>
      rw [Stream.splitFrom_header small, if_pos bad, Stream.splitFrom_header small, if_pos bad]
      exact .failed _

/-- Streams that are alike split into attributes that are. -/
theorem attributes_alike {layer : Layer} {first second : Bytes}
    (alike : Alike scope (some layer) first second) :
    Paired (List.Forall₂ (RawAlike scope layer)) (attributes first) (attributes second) := by
  have split := splitFrom_alike alike 0 .nil
  unfold attributes Stream.split
  generalize Stream.splitFrom 0 first [] = one, Stream.splitFrom 0 second [] = two at split ⊢
  cases split with
  | failed truncation => exact .failed _
  | done raws => exact .done raws

/-- Attributes that were picked under the same definition, alike inside. -/
structure PickedAlike (scope : Scope) (first second : Attribute × RawAttribute) : Prop where
  definition : first.1 = second.1
  payload : Alike scope (layerOf scope first.1) first.2.payload second.2.payload

/-- Attributes that are alike have the same definitions. -/
theorem definitions_alike {found others : List (Attribute × RawAttribute)}
    (alike : List.Forall₂ (PickedAlike scope) found others) :
    found.map Prod.fst = others.map Prod.fst := by
  rw [← List.forall₂_eq_eq_eq, List.forall₂_map_left_iff, List.forall₂_map_right_iff]
  exact alike.imp fun _ _ picked => picked.definition

/-- Of alike attributes, the same ones are picked. -/
theorem pick_alike {peer : Peer} {set : AttributeSet} {allowed : Option AllowedList}
    {raws others : List RawAttribute}
    (alike : List.Forall₂ (RawAlike scope (.members set)) raws others)
    {found otherFound : List (Attribute × RawAttribute)}
    (before : List.Forall₂ (PickedAlike scope) found otherFound) :
    Paired (List.Forall₂ (PickedAlike scope))
      (pick peer set allowed RawAttribute.type found raws)
      (pick peer set allowed RawAttribute.type otherFound others) := by
  induction alike generalizing found otherFound with
  | nil => exact .done (List.forall₂_reverse_iff.2 before)
  | @cons raw other raws others here _ ih =>
      have type := here.type set rfl
      rw [pick, pick, ← type]
      cases known : recognise peer set allowed raw.type with
      | error error => exact .failed error
      | ok recognised =>
          cases recognised with
          | none => exact ih before
          | some attr =>
              have names : otherFound.any (fun earlier => earlier.1.name == attr.name) =
                  found.any fun earlier => earlier.1.name == attr.name := by
                have same := congrArg (List.any · fun earlier => earlier.name == attr.name)
                  (definitions_alike before)
                simpa only [List.any_map, Function.comp_def] using same.symm
              simp only [bind, Except.bind, names]
              split
              · exact .failed _
              · refine ih (.cons ⟨rfl, ?_⟩ before)
                have payload := here.payload
                rwa [Layer.inside, withNumber?_of_recognise known, Option.bind_some] at payload

/-- The decoder makes the same of alike streams. -/
def MessageIndifferent (scope : Scope) (peer : Peer) (data : Bytes) : Prop :=
  ∀ set allowed other, Alike scope (some (.members set)) data other →
    message scope peer set allowed data = message scope peer set allowed other

/-- The same for the payload of one attribute. -/
def ValueIndifferent (scope : Scope) (peer : Peer) (payload : Bytes) : Prop :=
  ∀ attr other, Alike scope (layerOf scope attr) payload other →
    value scope peer attr payload = value scope peer attr other

variable {peer : Peer}

/-- Arrays that are alike decode to the same value where the messages inside do. -/
theorem array_indifferent {attr : Attribute} {payload other : Bytes} (kind : attr.kind = .arrayNest)
    (inner : ∀ data : Bytes, data.length ≤ payload.length → MessageIndifferent scope peer data)
    (alike : Alike scope (some (.entries attr)) payload other) :
    value scope peer attr payload = value scope peer attr other := by
  rw [value_arrayNest kind, value_arrayNest kind]
  refine (attributes_alike alike).bind_eq fun raws others parted each => ?_
  cases scalar : attr.entryScalar? with
  | some type =>
      have same : raws.mapM (fun entry => readScalar attr type entry.payload) =
          others.mapM fun entry => readScalar attr type entry.payload := by
        refine mapM_eq_of_forall₂ each fun raw _ other alike => ?_
        have payload := alike.payload
        simp only [Layer.inside, scalar, Option.isSome_some, if_true] at payload
        rw [payload.eq_of_none]
      simp only [same]
  | none =>
      cases contents : attr.contents scope with
      | error error => rfl
      | ok set =>
          have same : raws.mapM (fun entry => do
                let members ← message scope peer set none entry.payload
                return Value.nest members) =
              others.mapM fun entry => do
                let members ← message scope peer set none entry.payload
                return Value.nest members := by
            refine mapM_eq_of_forall₂ each fun raw among other alike => ?_
            have shorter := Stream.payload_lt (attributes_eq_ok_iff.1 parted) among
            have payload := alike.payload
            simp only [Layer.inside, scalar, contents, Option.isSome_none, Except.toOption,
              Option.map_some] at payload
            rw [inner raw.payload (Nat.le_of_lt shorter) set none other.payload payload]
          simp only [bind, Except.bind] at same ⊢
          rw [same]

/-- Values that are alike decode to the same where the messages inside do. -/
theorem valueIndifferent {payload : Bytes}
    (inner : ∀ data : Bytes, data.length ≤ payload.length → MessageIndifferent scope peer data) :
    ValueIndifferent scope peer payload := by
  intro attr other alike
  by_cases isNest : attr.kind = .nest
  · rw [value_nest isNest, value_nest isNest]
    cases contents : attr.contents scope with
    | error error => rfl
    | ok set =>
        have members : Alike scope (some (.members set)) payload other := by
          simpa [layerOf, isNest, contents, Except.toOption] using alike
        have same := inner payload (Nat.le_refl _) set none other members
        simp only [bind, Except.bind, same]
  · by_cases isArray : attr.kind = .arrayNest
    · exact array_indifferent isArray inner (by simpa [layerOf, isArray] using alike)
    · have unreached : layerOf scope attr = none := by
        unfold layerOf
        split
        · exact absurd ‹_› isNest
        · exact absurd ‹_› isArray
        · rfl
      rw [unreached] at alike
      rw [alike.eq_of_none]

/-- Messages that are alike decode to the same where the values inside do. -/
theorem messageIndifferent {data : Bytes}
    (inner : ∀ payload : Bytes, payload.length < data.length →
      ValueIndifferent scope peer payload) :
    MessageIndifferent scope peer data := by
  intro set allowed other alike
  rw [message_eq, message_eq]
  refine (attributes_alike alike).bind_eq fun raws others parted each => ?_
  refine (pick_alike each .nil).bind_eq fun picked otherPicked chosen found => ?_
  have same : picked.mapM (read scope peer) = otherPicked.mapM (read scope peer) := by
    refine mapM_eq_of_forall₂ found fun entry member other alike => ?_
    have among := (source_of_pick chosen entry member).1
    have shorter := Stream.payload_lt (attributes_eq_ok_iff.1 parted) among
    have value := inner entry.2.payload shorter entry.1 other.2.payload alike.payload
    rw [read, read, ← alike.definition, value]
  rw [same]

/-- Messages that are alike decode to the same. -/
theorem message_indifferent (scope : Scope) (peer : Peer) (data : Bytes) :
    MessageIndifferent scope peer data :=
  induction_on_length (fun _ => valueIndifferent) (fun _ => messageIndifferent) data

end Decoding

namespace Family

open Outcome

/-- Either peer decodes alike streams to the same message or the same error, and does so for a
stream without the padding of its last attribute, which is all that lies behind the last payload. -/
theorem decode_indifferent (family : Family) (peer : Peer) (set : String) :
    (∀ first second, (∀ attrs, family.attributeSet set = .ok attrs →
        Decoding.Alike family.toScope (some (.members attrs)) first second) →
      family.decode peer set first = family.decode peer set second) ∧
    ∀ data raws, Stream.split data = .ok raws →
      Stream.occupied raws ≤ data.length ∧ data.length ≤ alignUp (Stream.occupied raws) ∧
        family.decode peer set (data.take (Stream.occupied raws)) =
          family.decode peer set data := by
  constructor
  · intro first second alike
    rw [decode, decode]
    cases declared : family.attributeSet set with
    | error error => rfl
    | ok attrs =>
        exact Decoding.message_indifferent family.toScope peer first attrs none second
          (alike attrs declared)
  · intro data raws parted
    obtain ⟨within, padding, again⟩ := Stream.split_unpadded parted
    have same : Decoding.attributes (data.take (Stream.occupied raws)) =
        Decoding.attributes data := by
      rw [Decoding.attributes, again, Decoding.attributes, parted]
    refine ⟨within, padding, ?_⟩
    simp only [decode, Decoding.message_eq, same]

/-- A number next to an array of nests. -/
def roomy : Spec.File where
  license := Spec.acceptedLicense
  family :=
    { name := "f"
      attributeSets :=
        [{ name := "f"
           attributes :=
            [{ name := "x", kind := some "u8" },
             { name := "list", kind := some "array-nest", nestedAttributes := some "entry" }] },
         { name := "entry"
           attributes := [{ name := "y", kind := some "u8" }] }]
      operations := { list := [{ name := "get", attributeSet := some "f" }] } }

theorem isSome_ofSpec_roomy : (ofSpec roomy []).toOption.isSome = true := by
  decide +kernel

/-- The family with an array of nests. -/
def roomyFamily : Family :=
  (ofSpec roomy []).toOption.get isSome_ofSpec_roomy

/-- The root set of that family. -/
def roomySet : AttributeSet :=
  (roomyFamily.attributeSet "f").toOption.get (by decide +kernel)

/-- The array in that set. -/
def roomyList : Attribute :=
  (roomySet.withNumber? 2).get (by decide +kernel)

/-- The set of an entry of that array. -/
def roomyEntry : AttributeSet :=
  (roomyList.contents roomyFamily.toScope).toOption.get (by decide +kernel)

/-- The number, then an array with one entry, with zeros as padding. -/
def roomyStream : Bytes :=
  Stream.placed 1 [7] [0, 0, 0]
    (Stream.placed 0x8002 (Stream.placed 0x8000 (Stream.placed 1 [9] [0, 0, 0] []) [] []) [] [])

/-- The same with other flags, other padding and another type of the entry. -/
def otherRoomyStream : Bytes :=
  Stream.placed 0x4001 [7] [1, 2, 3]
    (Stream.placed 2 (Stream.placed 0x4009 (Stream.placed 0xC001 [9] [4, 5, 6] []) [] []) [] [])

/-- The two streams are alike. -/
theorem alike_roomyStream : Decoding.Alike roomyFamily.toScope (some (.members roomySet))
    roomyStream otherRoomyStream := by
  have array : (Decoding.Layer.members roomySet).inside roomyFamily.toScope 2 =
      some (.entries roomyList) := by
    have listed : roomySet.withNumber? 2 = some roomyList := (Option.some_get _).symm
    have kind : roomyList.kind = .arrayNest := by decide +kernel
    simp only [Decoding.Layer.inside, listed, Option.bind_some, Decoding.layerOf, kind]
  have nest : (Decoding.Layer.entries roomyList).inside roomyFamily.toScope 0 =
      some (.members roomyEntry) := by
    have contents : roomyList.contents roomyFamily.toScope = .ok roomyEntry := Outcome.eq_ok_get _
    have nested : roomyList.entryScalar? = none := by decide +kernel
    simp only [Decoding.Layer.inside, nested, contents]
    rfl
  have members : Decoding.Alike roomyFamily.toScope (some (.members roomyEntry))
      (Stream.placed 1 [9] [0, 0, 0] []) (Stream.placed 0xC001 [9] [4, 5, 6] []) :=
    .next (by decide) ⟨by decide, by decide⟩ rfl rfl (.same [9]) (.same [])
  have entries : Decoding.Alike roomyFamily.toScope (some (.entries roomyList))
      (Stream.placed 0x8000 (Stream.placed 1 [9] [0, 0, 0] []) [] [])
      (Stream.placed 0x4009 (Stream.placed 0xC001 [9] [4, 5, 6] []) [] []) :=
    .next (by decide) ⟨by decide, by decide⟩ rfl trivial (nest ▸ members) (.same [])
  exact .next (by decide) ⟨by decide, by decide⟩ rfl rfl (.same [7])
    (.next (by decide) ⟨by decide, by decide⟩ rfl rfl (array ▸ entries) (.same []))

/-- Two different streams give one message, and a number is read with and without its padding. -/
theorem decode_indifferent_roomy :
    roomyStream ≠ otherRoomyStream ∧
      roomyFamily.decode .handling "f" roomyStream =
        .ok [("x", .scalar ⟨.u8, 7⟩), ("list", .array [.nest [("y", .scalar ⟨.u8, 9⟩)]])] ∧
      roomyFamily.decode .handling "f" otherRoomyStream =
        .ok [("x", .scalar ⟨.u8, 7⟩), ("list", .array [.nest [("y", .scalar ⟨.u8, 9⟩)]])] ∧
      roomyFamily.decode .handling "f" [5, 0, 1, 0, 7] =
        roomyFamily.decode .handling "f" [5, 0, 1, 0, 7, 0, 0, 0] := by
  have decoded : roomyFamily.decode .handling "f" roomyStream =
      .ok [("x", .scalar ⟨.u8, 7⟩), ("list", .array [.nest [("y", .scalar ⟨.u8, 9⟩)]])] := by
    decide +kernel
  obtain ⟨alike, unpadded⟩ := decode_indifferent roomyFamily .handling "f"
  have same := alike roomyStream otherRoomyStream fun attrs declared => by
    have held : roomyFamily.attributeSet "f" = .ok roomySet := Outcome.eq_ok_get _
    obtain rfl : roomySet = attrs := Except.ok.inj (held.symm.trans declared)
    exact alike_roomyStream
  have parted : Stream.split [5, 0, 1, 0, 7, 0, 0, 0] = .ok [Stream.rawOf 1 [7]] := by
    decide +kernel
  exact ⟨by decide +kernel, decoded, same ▸ decoded, (unpadded _ _ parted).2.2⟩

end Family

end NetlinkFamily
