import SmppHerald.EncodedLayout

namespace SmppHerald.PlainText

open SmppHerald.Base64
open SmppHerald.Buffer
open SmppHerald.ByteParser
open SmppHerald.CommandIds
open SmppHerald.EncodedLayout
open SmppHerald.FieldCodecs
open SmppHerald.Io
open SmppHerald.Json
open SmppHerald.Message
open SmppHerald.Utf8

section Texts

theorem length_le_charBytes (cs : List Char) : cs.length ≤ (charBytes cs).length := by
  induction cs with
  | nil => exact Nat.le_refl 0
  | cons c cs ih =>
      have hpos := c.utf8Size_pos
      rw [charBytes_cons, List.length_append, String.length_utf8EncodeChar, List.length_cons]
      omega

/-- What is decoded is shorter than the text, so it is not the text. -/
theorem octetsOf_eq_iff {text : String} (hpos : 1 ≤ (bytes text).length) :
    octetsOf text = bytes text ↔ ¬ Canonical text.toList := by
  rw [← decodeChars_isSome_iff, octetsOf, Base64.decode]
  cases hdecode : decodeChars text.toList with
  | none => simp
  | some octets =>
      refine iff_of_false ?_ (by simp)
      intro hsame
      have hquarters := length_decodeChars hdecode
      have hlength := length_le_charBytes text.toList
      rw [show octets = bytes text from hsame] at hquarters
      rw [bytes] at hquarters hpos
      omega

end Texts

section Messages

variable {namedTlvFields : NamedTlvFields} {message : Value} {text : String}

/-- The text is the last mandatory field of the PDU, behind its length. -/
def CarriesText (namedTlvFields : NamedTlvFields) (message : Value) (text : String) : Prop :=
  ∃ layout : Layout namedTlvFields message (encoded namedTlvFields message),
    ∃ front length, layout.fields = front ++ [length :: bytes text] ∧
      length.toNat = (bytes text).length

theorem forall₂_concat {α β : Type} {R : α → β → Prop} {items : List α} {item : α}
    {parts : List β} (h : List.Forall₂ R (items ++ [item]) parts) :
    ∃ front part, parts = front ++ [part] ∧ R item part := by
  induction items generalizing parts with
  | nil =>
      cases h with
      | cons hitem hnil =>
          cases hnil
          exact ⟨[], _, rfl, hitem⟩
  | cons first items ih =>
      cases h with
      | cons _ hrest =>
          obtain ⟨front, part, rfl, hitem⟩ := ih hrest
          exact ⟨_ :: front, part, rfl, hitem⟩

theorem mandatoryFields_submitSm (h : extractCommandId message = some .submitSm) :
    ∃ fields, mandatoryFields message = fields ++ [("short_message", none)] := by
  rw [mandatoryFields, h]
  exact ⟨((messageCommandFields CommandId.submitSm.asU32).getD []).dropLast, rfl⟩

theorem encodeField_shortMessage (h : message.get "short_message" = some (.string text)) :
    encodeField message ("short_message", none) =
      .ok (UInt8.ofNat (octetsOf text).length :: octetsOf text) := by
  have hcodec : fieldCodecs "short_message" = some (.octet true 1) := rfl
  simp only [encodeField, hcodec, h]
  rfl

theorem exists_shortMessage (layout : Layout namedTlvFields message
      (encoded namedTlvFields message))
    (hcommand : extractCommandId message = some .submitSm)
    (htext : message.get "short_message" = some (.string text)) :
    ∃ front, layout.fields =
      front ++ [UInt8.ofNat (octetsOf text).length :: octetsOf text] := by
  have hencoded := layout.encodedFields
  obtain ⟨fields, hfields⟩ := mandatoryFields_submitSm hcommand
  rw [hfields] at hencoded
  obtain ⟨front, part, hparts, hpart⟩ := forall₂_concat hencoded
  obtain rfl := Outcome.ok.inj ((encodeField_shortMessage htext).symm.trans hpart)
  exact ⟨front, hparts⟩

theorem octetsOf_of_carriesText (hcommand : extractCommandId message = some .submitSm)
    (htext : message.get "short_message" = some (.string text))
    (h : CarriesText namedTlvFields message text) : octetsOf text = bytes text := by
  obtain ⟨layout, front, length, hfields, -⟩ := h
  obtain ⟨front', hwritten⟩ := exists_shortMessage layout hcommand htext
  have hlast := (List.append_inj' (hfields.symm.trans hwritten) rfl).2
  simp only [List.cons.injEq, and_true] at hlast
  exact hlast.2.symm

/-- A text is sent as it was given exactly when it cannot be read as Base64. -/
theorem carriesText_iff (namedTlvFields : NamedTlvFields) (message : Value) (text : String)
    (haccepted : accepted namedTlvFields message = true)
    (hcommand : extractCommandId message = some .submitSm)
    (htext : message.get "short_message" = some (.string text))
    (hpos : 1 ≤ (bytes text).length) (hlength : (bytes text).length ≤ 255) :
    CarriesText namedTlvFields message text ↔ ¬ Canonical text.toList := by
  rw [← octetsOf_eq_iff hpos]
  constructor
  · exact octetsOf_of_carriesText hcommand htext
  · intro hsame
    obtain ⟨layout⟩ := exists_layout (fromJson_encoded haccepted)
    obtain ⟨front, hwritten⟩ := exists_shortMessage layout hcommand htext
    rw [hsame] at hwritten
    refine ⟨layout, front, _, hwritten, ?_⟩
    rw [UInt8.toNat_ofNat']
    exact Nat.mod_eq_of_lt (by omega)

end Messages

section Example

/-- A submit_sm with a text. -/
def submitSmWith (text : String) : Value :=
  .object [("command_id", .ofNat 4), ("destination_addr", .string "49"),
    ("short_message", .string text)]

theorem carriesText_hello : CarriesText declaredTlvFields (submitSmWith "hello") "hello" :=
  (carriesText_iff declaredTlvFields (submitSmWith "hello") "hello" (by decide +kernel)
    (by decide) rfl (by decide) (by decide)).mpr
      ((decodeChars_isSome_iff _).not.mp (by decide))

/-- The text `test` is sent as three other octets. -/
theorem not_carriesText_test :
    accepted declaredTlvFields (submitSmWith "test") = true ∧
      ¬ CarriesText declaredTlvFields (submitSmWith "test") "test" := by
  refine ⟨by decide +kernel, ?_⟩
  intro hcarries
  have hsame : octetsOf "test" = bytes "test" :=
    octetsOf_of_carriesText (by decide) rfl hcarries
  revert hsame
  decide

end Example

end SmppHerald.PlainText
