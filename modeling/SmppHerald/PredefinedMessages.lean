import SmppHerald.ServerMessage

namespace SmppHerald.PredefinedMessages

open SmppHerald.CommandIds
open SmppHerald.Io
open SmppHerald.Json
open SmppHerald.Message
open SmppHerald.ServerMessage

section Substitution

/-- The predefined message with a number, counted from one. -/
def predefinedText (config : ServerConfig) (smDefaultMsgId : UInt64) : Option String :=
  if smDefaultMsgId = 0 then none
  else (config.predefinedMessages.getD [])[smDefaultMsgId.toNat - 1]?

/-- The message has the predefined text instead of its number, and nothing else is changed. Without a
predefined message of that number nothing is. -/
structure Substituted (config : ServerConfig) (message replaced : Value) : Prop where
  text : ∀ text, predefinedText config (message.u64Field "sm_default_msg_id") = some text →
    replaced.get "short_message" = some (.string text) ∧
      replaced.get "sm_default_msg_id" = some (.ofNat 0)
  others : ∀ key, key ≠ "short_message" → key ≠ "sm_default_msg_id" →
    replaced.get key = message.get key
  unchanged : predefinedText config (message.u64Field "sm_default_msg_id") = none →
    replaced = message

variable {config : ServerConfig} {message : Value}

theorem getPredefinedMessage_eq {smDefaultMsgId : UInt64} (h : smDefaultMsgId ≠ 0) :
    config.getPredefinedMessage smDefaultMsgId.toNat = predefinedText config smDefaultMsgId := by
  rw [predefinedText, if_neg h, ServerConfig.getPredefinedMessage]
  cases config.predefinedMessages <;> rfl

theorem replaceSmDefaultMsgId_of_none
    (h : predefinedText config (message.u64Field "sm_default_msg_id") = none) :
    replaceSmDefaultMsgIdWithPredefinedMessage config message = .ok message := by
  unfold replaceSmDefaultMsgIdWithPredefinedMessage
  simp only
  split
  · rename_i hnonzero
    rw [getPredefinedMessage_eq hnonzero, h]
  · rfl

theorem replaceSmDefaultMsgId_of_some {text : String}
    (h : predefinedText config (message.u64Field "sm_default_msg_id") = some text) :
    replaceSmDefaultMsgIdWithPredefinedMessage config message =
      replaceMessageWithPredefined (message.assignKey "sm_default_msg_id" (.ofNat 0)) text := by
  have hnonzero : message.u64Field "sm_default_msg_id" ≠ 0 := by
    intro hzero
    simp [predefinedText, hzero] at h
  unfold replaceSmDefaultMsgIdWithPredefinedMessage
  rw [if_pos hnonzero, getPredefinedMessage_eq hnonzero, h]

theorem get_smDefaultMsgId_cleared {text : String}
    (h : predefinedText config (message.u64Field "sm_default_msg_id") = some text) :
    (message.assignKey "sm_default_msg_id" (.ofNat 0)).get "sm_default_msg_id" =
      some (.ofNat 0) := by
  rw [Value.get_assignKey_self]
  cases hget : message.get "sm_default_msg_id" with
  | some value => rfl
  | none => simp [predefinedText, Value.u64Field, hget] at h

theorem extractCommandId_assignKey {key : String} (hid : "command_id" ≠ key)
    (hname : "command_name" ≠ key) (value : Value) :
    extractCommandId (message.assignKey key value) = extractCommandId message := by
  rw [extractCommandId, extractCommandId, Value.get_assignKey_of_ne hid,
    Value.get_assignKey_of_ne hname]

/-- Only for a submit_multi is the number cleared and its text left out. -/
theorem substituted_iff (config : ServerConfig) (message : Value)
    (hcommand : extractCommandId message = some .submitSm ∨
      extractCommandId message = some .submitMulti)
    (hempty : message.get "short_message" = some (.string "")) :
    (∃ replaced, replaceSmDefaultMsgIdWithPredefinedMessage config message = .ok replaced ∧
      Substituted config message replaced) ↔
      extractCommandId message = some .submitMulti →
        (predefinedText config (message.u64Field "sm_default_msg_id")).getD "" = "" := by
  cases htext : predefinedText config (message.u64Field "sm_default_msg_id") with
  | none =>
      refine iff_of_true ⟨message, replaceSmDefaultMsgId_of_none htext, ?_, ?_, ?_⟩ fun _ => rfl
      · intro text hsome
        rw [htext] at hsome
        cases hsome
      · exact fun _ _ _ => rfl
      · exact fun _ => rfl
  | some text =>
      have hcleared := get_smDefaultMsgId_cleared htext
      have hshort : (message.assignKey "sm_default_msg_id" (.ofNat 0)).get "short_message" =
          some (.string "") := by
        rw [Value.get_assignKey_of_ne (by decide), hempty]
      have hothers : ∀ key, key ≠ "sm_default_msg_id" →
          (message.assignKey "sm_default_msg_id" (.ofNat 0)).get key = message.get key :=
        fun key hkey => Value.get_assignKey_of_ne hkey _ _
      rw [replaceSmDefaultMsgId_of_some htext, replaceMessageWithPredefined,
        extractCommandId_assignKey (by decide) (by decide), hshort]
      rcases hcommand with hsubmit | hmulti
      · rw [hsubmit]
        refine iff_of_true ⟨_, rfl, ?_, ?_, ?_⟩ (by simp)
        · intro other hother
          obtain rfl := Option.some.inj (htext.symm.trans hother)
          rw [Value.get_assignKey_self, hshort, Value.get_assignKey_of_ne (by decide)]
          exact ⟨rfl, hcleared⟩
        · intro key hkey hid
          rw [Value.get_assignKey_of_ne hkey, hothers key hid]
        · intro hnone
          rw [htext] at hnone
          cases hnone
      · rw [hmulti]
        constructor
        · rintro ⟨replaced, hreplaced, hsubstituted⟩ -
          obtain rfl := Outcome.ok.inj hreplaced
          have hplaced := (hsubstituted.text text htext).1
          rw [hshort, Option.some.injEq, Value.string.injEq] at hplaced
          exact hplaced.symm
        · intro hblank
          obtain rfl : text = "" := hblank rfl
          refine ⟨_, rfl, ?_, fun key _ hid => hothers key hid, ?_⟩
          · intro other hother
            obtain rfl := Option.some.inj (htext.symm.trans hother)
            exact ⟨hshort, hcleared⟩
          · intro hnone
            rw [htext] at hnone
            cases hnone

end Substitution

section Example

/-- A server with one predefined message. -/
def greetingConfig : ServerConfig := ⟨0x34, none, none, some ["Hello"], none⟩

/-- A message of a command with the number of a predefined message and no text. -/
def numberedMessage (commandId smDefaultMsgId : Nat) : Value :=
  .object [("command_id", .ofNat commandId), ("short_message", .string ""),
    ("sm_default_msg_id", .ofNat smDefaultMsgId)]

/-- A submit_sm with the first message, and a submit_multi with one that there is not. -/
theorem substituted_submitSm :
    (∃ replaced, replaceSmDefaultMsgIdWithPredefinedMessage greetingConfig (numberedMessage 4 1) =
      .ok replaced ∧ Substituted greetingConfig (numberedMessage 4 1) replaced) ∧
    ∃ replaced, replaceSmDefaultMsgIdWithPredefinedMessage greetingConfig
      (numberedMessage 0x21 2) = .ok replaced ∧
        Substituted greetingConfig (numberedMessage 0x21 2) replaced :=
  ⟨(substituted_iff greetingConfig (numberedMessage 4 1) (by decide) rfl).mpr (by decide),
    (substituted_iff greetingConfig (numberedMessage 0x21 2) (by decide) rfl).mpr (by decide)⟩

/-- The number of a submit_multi is cleared, and its text stays empty. -/
theorem not_substituted_submitMulti :
    ¬ ∃ replaced, replaceSmDefaultMsgIdWithPredefinedMessage greetingConfig
      (numberedMessage 0x21 1) = .ok replaced ∧
        Substituted greetingConfig (numberedMessage 0x21 1) replaced := by
  have hresult : replaceSmDefaultMsgIdWithPredefinedMessage greetingConfig
      (numberedMessage 0x21 1) = .ok (numberedMessage 0x21 0) := by rfl
  rintro ⟨replaced, hreplaced, hsubstituted⟩
  obtain rfl := Outcome.ok.inj (hresult.symm.trans hreplaced)
  have htext := (hsubstituted.text "Hello" (by decide)).1
  simp [numberedMessage, Value.get, List.lookup_cons] at htext

end Example

end SmppHerald.PredefinedMessages
