import ReleaseRadar.Store.Notifications

/-!
# Announcing a stage

`AnnounceStage` of `backend/internal/teams/teams.go`, as its caller sees it: the
error it returns, by the channel's webhook and by how the POST ended.
-/

namespace ReleaseRadar

/-- The text of an error. The packages called (`net/http`, `encoding/json`, pgx)
return no error without one. -/
structure ErrText where
  text : String
  nonempty : text ≠ ""
deriving DecidableEq, Repr

/-- The channel as the column holds it. -/
def Channel.text : Channel → String
  | .TMS_NP => "TMS_NP"
  | .TMS_PROD => "TMS_PROD"

/-- The webhooks of `config.TeamsConfig`. -/
structure TeamsConfig where
  webhookNonProd : String
  webhookProd : String

/-- How the POST ended: without an answer (the card, the request or the
connection failed), or with a status and the first KiB of the body. -/
inductive Send
  | failed (err : ErrText)
  | answered (status : Nat) (body : String)
deriving DecidableEq, Repr

namespace TeamsConfig

def webhookFor (cfg : TeamsConfig) : Channel → String
  | .TMS_NP => cfg.webhookNonProd
  | .TMS_PROD => cfg.webhookProd

/-- The error of `AnnounceStage`, `none` for `nil`. -/
def announceStage (cfg : TeamsConfig) (channel : Channel) (send : Send) : Option String :=
  if cfg.webhookFor channel = "" then
    some ("no webhook configured for channel \"" ++ channel.text ++ "\"")
  else
    match send with
    | .failed err => some err.text
    | .answered status body =>
      if status ≥ 300 then some ("teams webhook " ++ toString status ++ ": " ++ body) else none

/-- Every error has a text, so that no failure is marked as a success. -/
theorem announceStage_text (cfg : TeamsConfig) (channel : Channel) (send : Send) :
    cfg.announceStage channel send ≠ some "" := by
  intro h
  unfold announceStage at h
  split at h
  · simp [String.append_eq_empty_iff] at h
  · cases send with
    | failed err => exact err.nonempty (Option.some.inj h)
    | answered status body =>
      dsimp only at h
      split at h
      · simp [String.append_eq_empty_iff] at h
      · cases h

end TeamsConfig

end ReleaseRadar
