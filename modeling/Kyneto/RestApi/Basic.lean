import Kyneto.Database
import Kyneto.Evm.Run

/-!
# The REST API

The statements with which `api/rest-api/src/server.ts` ends a deal, and what its handlers answer and emit. A deal ends
by `DELETE /api/deals/:id` or, when it has expired, by a job that runs every five minutes. The second handler of
`DELETE /api/deals/:id` in the file is never reached: the first one answers every request.

The statements name columns that `config/database-schema.sql` does not list: `cancelled_at`, `deleted_at`,
`duration_days`. Which columns the tables have is part of the environment.
-/

namespace Kyneto

open Evm Sql

/-! ## Texts -/

/-- The escapes of `JSON.stringify`. -/
def jsonEscape (c : Char) : String :=
  if c = '"' then "\\\"" else if c = '\\' then "\\\\"
  else if c = '\n' then "\\n" else if c = '\r' then "\\r" else if c = '\t' then "\\t"
  else if c = '\x08' then "\\b" else if c = '\x0c' then "\\f"
  else if c.toNat < 32 then
    "\\u00" ++ String.ofList [Nat.digitChar (c.toNat / 16), Nat.digitChar (c.toNat % 16)]
  else c.toString

def jsonString (s : String) : String := "\"" ++ String.join (s.toList.map jsonEscape) ++ "\""

def jsonStrings (l : List String) : String := "[" ++ ",".intercalate (l.map jsonString) ++ "]"

/-- `JSON.stringify({ dealId })` -/
def jsonDealId (dealId : String) : String := "\x7b\"dealId\":" ++ jsonString dealId ++ "\x7d"

/-! ## Messages -/

/-- The payload of a `deal:cancelled` message. A field that is left out is `undefined`. -/
structure CancelledMessage where
  dealId : String
  shardCIDs : Option (List String) := none
  providerAddresses : Option (List String) := none
  deriving DecidableEq, Repr

/-- Who gets a message: everybody, or the sockets in a room. -/
inductive Audience where
  | everybody
  | room (name : String)
  deriving DecidableEq, Repr

/-- What a handler sends out. -/
inductive ApiLog where
  | responds (status : Nat) (text : String)
  | emits (audience : Audience) (message : CancelledMessage)
  deriving DecidableEq, Repr

/-- The room that the sockets of a provider join when they register. -/
def providerRoom (address : String) : String := "provider-rpc:" ++ address.toLower

/-! ## Statements -/

/-- The columns of the tables, the times at which deals expire (`created_at` and `duration_days`), and the check of
signatures. -/
structure ApiEnv where
  dealColumns : List String
  shardColumns : List String
  expiresAt : String → Option Nat
  verifySignature : (message signature address : String) → Bool

namespace ApiEnv

variable (env : ApiEnv)

def updateDeal (names : List String) (dealId : String) (set : DealRow → DealRow) (db : Database) : Query Database := do
  resolve env.dealColumns names
  return { db with deals := update (fun r => r.dealId = dealId) set db.deals }

/-- `UPDATE deals SET status = 'cancelled', cancelled_at = NOW() WHERE deal_id = $2` -/
def cancelDeal (dealId : String) : Database → Query Database :=
  env.updateDeal ["status", "cancelled_at", "deal_id"] dealId fun r => { r with status := "cancelled" }

/-- `UPDATE deals SET status = 'completed', completed_at = NOW() WHERE deal_id = $2` -/
def completeDeal (now : Nat) (dealId : String) : Database → Query Database :=
  env.updateDeal ["status", "completed_at", "deal_id"] dealId fun r =>
    { r with status := "completed", completedAt := some now }

/-- `UPDATE shards SET active = false, deleted_at = NOW() WHERE deal_id = $1 AND active = true` -/
def dropShards (dealId : String) (db : Database) : Query Database := do
  resolve env.shardColumns ["active", "deleted_at", "deal_id", "active"]
  return { db with
    shards := update (fun r => r.dealId = dealId ∧ r.active = true) (fun r => { r with active := false }) db.shards }

def logEvent (event : ProtocolEvent) (db : Database) : Query Database :=
  .ok { db with protocolEvents := db.protocolEvents ++ [event] }

/-- The deals that the query of the job returns. -/
def expiredDeals (now : Nat) (db : Database) : Query (List String) := do
  resolve env.dealColumns ["deal_id", "status", "created_at", "duration_days"]
  return (db.deals.filter fun r => r.status = "active" ∧ (env.expiresAt r.dealId).any (· < now) = true).map
    DealRow.dealId

end ApiEnv

/-- The event that the job logs for a deal. -/
def expiredEvent (dealId : String) : ProtocolEvent where
  eventType := "DEAL_COMPLETED"
  description := s!"Deal {dealId} automatically completed (expired)"
  data := jsonDealId dealId

/-- The columns that the statements need besides those of the schema. -/
def ApiEnv.full (expiresAt : String → Option Nat) (verifySignature : String → String → String → Bool) : ApiEnv where
  dealColumns := Kyneto.dealColumns ++ ["cancelled_at", "duration_days"]
  shardColumns := Kyneto.shardColumns ++ ["deleted_at"]
  expiresAt
  verifySignature

end Kyneto
