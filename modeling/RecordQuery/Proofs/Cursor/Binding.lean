import Mathlib.Logic.Function.Basic
import RecordQuery.Cursor.Token
import RecordQuery.Proofs.Cipher.Laws
import RecordQuery.Proofs.Codec.Base64
import RecordQuery.Proofs.Order.Signature
import RecordQuery.Proofs.Outcome
import RecordQuery.Proofs.Text.Utf8
import RecordQuery.Sample.Library

/-!
# Page tokens are bound to order and context

The context may hold any bytes, zeros and whole signatures among them, but the signature of an order
holds no zero: the last zero of the associated data is the one that ends the context.
-/

namespace RecordQuery.Cursor

theorem zero_not_mem_utf8_signature (order : Order) : 0 ∉ Text.utf8 order.signature :=
  fun h ↦ order.zero_not_mem_signature (Text.zero_mem_utf8 h)

/-- The associated data tell orders and contexts apart. -/
theorem associatedData_inj {order order' : Order} {context context' : List UInt8}
    (h : associatedData order context = associatedData order' context') :
    order = order' ∧ context = context' := by
  obtain ⟨hcontext, hsignature⟩ := Text.append_cons_inj (zero_not_mem_utf8_signature order)
    (zero_not_mem_utf8_signature order') h
  exact ⟨Order.signature_injective (Text.utf8_injective hsignature), hcontext⟩

variable {ι : Type} [DecidableEq ι] {R : Registry ι} {t : ι} {cipher : Cipher}
  {nonce context : List UInt8} {r : Record R t} {order : Order} {token : String}

/-- A token is the base64 text of something sealed under the order and the context. -/
theorem exists_encrypt_of_encode (h : encode cipher nonce r order context = .ok token) :
    ∃ plaintext text, token = Codec.Base64.encode Codec.Base64.urlSafe text ∧
      cipher.encrypt nonce plaintext (associatedData order context) = some text := by
  unfold encode at h
  split at h
  · exact nomatch h
  · rename_i projected _
    split at h
    · rename_i text hseal
      exact ⟨Codec.encodeRecord projected, text, (Except.ok.inj h).symm, hseal⟩
    · exact nomatch h

/-- Different orders or contexts have different associated data. A token is therefore refused under
any order and context but its own, provided that the cipher is bound to its associated data. -/
theorem associatedData_binds (R : Registry ι) (t : ι) :
    Function.Injective2 associatedData ∧
      ∀ {cipher : Cipher}, cipher.Binding →
        ∀ {nonce : List UInt8} {r : Record R t} {order order' : Order} {context context' : List UInt8}
          {token : String}, encode cipher nonce r order context = .ok token →
          (order, context) ≠ (order', context') → (∃ c, order'.compile R t = .ok c) →
          decode R t cipher token order' context' = .error .invalidPageToken := by
  constructor
  · intro order order' context context' h
    exact associatedData_inj h
  · intro cipher hcipher nonce r order order' context context' token hencode hne ⟨c, hcompile⟩
    obtain ⟨plaintext, text, rfl, hseal⟩ := exists_encrypt_of_encode hencode
    have hassociated : associatedData order context ≠ associatedData order' context' := by
      intro h
      obtain ⟨rfl, rfl⟩ := associatedData_inj h
      exact hne rfl
    have hrefuse : cipher.decrypt text (associatedData order' context') = none :=
      hcipher nonce plaintext _ _ text hseal hassociated
    simp only [decode, hcompile, Codec.Base64.decode?_encode, Option.bind_eq_bind, Option.bind_some,
      hrefuse, Option.bind_none]

section Example

open Sample

private def byYear : Order :=
  ⟨[⟨⟨["year"], by simp, by decide⟩, .asc⟩], by simp⟩

private def byYearThenMonth : Order :=
  ⟨[⟨⟨["year"], by simp, by decide⟩, .asc⟩, ⟨⟨["month"], by simp, by decide⟩, .desc⟩], by simp⟩

/-- A context that ends in a zero and a signature does not pass for a longer order. -/
theorem associatedData_binds_year : ∃ token,
    encode Cipher.framed [] (Record.default : Record library .date) byYear
        (97 :: 0 :: Text.utf8 "year:asc") = .ok token ∧
      decode library .date Cipher.framed token byYearThenMonth [97] = .error .invalidPageToken := by
  obtain ⟨token, htoken⟩ := Outcome.exists_eq_ok_of_isOk (x := encode Cipher.framed []
    (Record.default : Record library .date) byYear (97 :: 0 :: Text.utf8 "year:asc"))
    (by decide +kernel)
  refine ⟨token, htoken, ?_⟩
  apply (associatedData_binds library .date).2 Cipher.framed_binding htoken
  · decide
  · exact Outcome.exists_eq_ok_of_isOk (by decide +kernel)

end Example

end RecordQuery.Cursor
