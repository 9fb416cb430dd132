import RecordQuery.Cursor.Token
import RecordQuery.Proofs.Cipher.Laws
import RecordQuery.Proofs.Codec.Base64
import RecordQuery.Proofs.Cursor.Projection
import RecordQuery.Proofs.Outcome
import RecordQuery.Sample.Library

/-!
# Page tokens are read back

Projecting, packing, sealing and writing in base64 are each undone by the reader, so a token gives back
the projection that was put into it. That packed records are read back is left as a condition on the
projection.
-/

namespace RecordQuery

variable {ι : Type} [DecidableEq ι] {R : Registry ι} {t : ι}

/-- Whether a record is read back from its packed form. -/
def Codec.ReadsBack (r : Record R t) : Prop :=
  decodeRecord? R t (encodeRecord r) = some r

namespace Cursor

variable {cipher : Cipher} {order : Order} {c : Comparator R t}

/-- Under a lawful cipher a record that packs has a token, which decodes to the projection of the
record. -/
theorem exists_encode (hcipher : cipher.Lawful) (hcompile : order.compile R t = .ok c)
    {r projected : Record R t} (hproject : r.project order = .ok projected)
    (hpacked : Codec.ReadsBack projected) (nonce context : List UInt8) :
    ∃ token, encode cipher nonce r order context = .ok token ∧
      decode R t cipher token order context = .ok projected := by
  obtain ⟨text, hseal, hopen⟩ :=
    hcipher nonce (Codec.encodeRecord projected) (associatedData order context)
  refine ⟨Codec.Base64.encode Codec.Base64.urlSafe text, ?_, ?_⟩
  · simp only [encode, hproject, hseal]
  · rw [Codec.ReadsBack] at hpacked
    simp only [decode, hcompile, Codec.Base64.decode?_encode, Option.bind_eq_bind,
      Option.bind_some, hopen, hpacked]

/-- Every record has a token under an order that compiles, and the token gives back the projection of
the record: the values at the end of the paths of the order, and the default of every other field. -/
theorem exists_encode_decode (hcipher : cipher.Lawful) (hdefault : R.DefaultsAreZero)
    (hcompile : order.compile R t = .ok c) (r : Record R t)
    (hpacked : ∀ projected, r.project order = .ok projected → Codec.ReadsBack projected)
    (nonce context : List UInt8) :
    ∃ token projected, encode cipher nonce r order context = .ok token ∧
      r.project order = .ok projected ∧
      decode R t cipher token order context = .ok projected ∧
      projected.fields = R.keepFields order.paths (R.describe t).fields r.fields := by
  obtain rfl := Order.order_compile hcompile
  obtain ⟨projected, hproject, hfields⟩ := c.exists_project_keepFields hdefault r
  obtain ⟨token, hencode, hdecode⟩ :=
    exists_encode hcipher hcompile hproject (hpacked projected hproject) nonce context
  exact ⟨token, projected, hencode, hproject, hdecode, hfields⟩

section Example

open Sample

/-- Two keys below one record, which itself may be unset. -/
private def byPlace : Order where
  keys :=
    [⟨⟨["hq", "geo", "lat"], by simp, by decide⟩, .desc⟩,
      ⟨⟨["hq", "geo", "lon"], by simp, by decide⟩, .asc⟩]
  nodup := by decide

private def geo (city : String) : Value LibraryType :=
  .record .address [.string city, .string "",
    .record .geo [.number (.float (.ofBits .binary64 0xFFF8000000000001)),
      .number (.float (.zero .binary64 true))]]

/-- A publisher whose place is a negative value that is not a number and a negative zero. -/
private def lost (name city : String) : Record library .publisher :=
  ⟨[.string name, .ofUnsigned 0, geo city], rfl⟩

theorem exists_encode_decode_lost : ∃ token,
    encode Cipher.framed [] (lost "Atlantis" "Poseidonis") byPlace [0] = .ok token ∧
      decode library .publisher Cipher.framed token byPlace [0] = .ok (lost "" "") := by
  obtain ⟨c, hcompile⟩ := Outcome.exists_eq_ok_of_isOk
    (x := byPlace.compile library .publisher) (by decide +kernel)
  have hproject : (lost "Atlantis" "Poseidonis").project byPlace = .ok (lost "" "") := by rfl
  have hpacked : Codec.ReadsBack (lost "" "") := by
    unfold Codec.ReadsBack
    with_unfolding_all rfl
  obtain ⟨token, projected, hencode, hprojected, hdecode, -⟩ :=
    exists_encode_decode Cipher.framed_lawful library_defaultsAreZero hcompile
      (lost "Atlantis" "Poseidonis") (by
        intro projected h
        obtain rfl := Except.ok.inj (hproject.symm.trans h)
        exact hpacked) [] [0]
  obtain rfl := Except.ok.inj (hproject.symm.trans hprojected)
  exact ⟨token, hencode, hdecode⟩

end Example

end Cursor

end RecordQuery
