/-
**The stream's two positions.**

`delivered` is the position every transaction yielded so far committed at or below, `confirmed` the
position the caller has reported as applied. A keepalive moves `delivered` only between
transactions, a COMMIT to the end of its transaction, and `confirm` refuses a position below an
earlier confirmation or beyond what was delivered.
-/

import Mathlib
import PgSprite.Decode.Change

namespace PgSprite.Decode

/-- Why the stream refuses a message or a position. -/
inductive StreamError where
  | noStart
  | beginInside
  | commitOutside
  | changeOutside
  | confirmBelow (lsn confirmed : LSN)
  | confirmBeyond (lsn delivered : LSN)
  deriving DecidableEq, Repr

/-- The stream on the route's slot. -/
structure Stream where
  /-- The position decoding was requested from. -/
  start : LSN
  delivered : LSN
  confirmed : LSN := 0
  /-- The walsender's send position from its last keepalive. -/
  serverWALEnd : LSN := 0
  inTransaction : Bool := false
  xid : Xid := 0
  deriving DecidableEq, Repr

namespace Stream

/-- Starts decoding from a position. -/
def openStream (origin : LSN) : Except StreamError Stream :=
  if origin = 0 then .error .noStart else .ok { start := origin, delivered := origin }

/-- Moves the delivered position forward. -/
def raiseDelivered (s : Stream) (lsn : LSN) : Stream :=
  if lsn > s.delivered then { s with delivered := lsn } else s

/-- Records the server's position, and delivers it between transactions. -/
def handleKeepalive (s : Stream) (walEnd : LSN) : Stream :=
  let s := { s with serverWALEnd := walEnd }
  if s.inTransaction then s else s.raiseDelivered walEnd

/-- A BEGIN message. -/
def handleBegin (s : Stream) (xid : Xid) : Except StreamError Stream :=
  if s.inTransaction then .error .beginInside else .ok { s with inTransaction := true, xid }

/-- A COMMIT message, with the position its transaction ends at. -/
def handleCommit (s : Stream) (transactionEnd : LSN) : Except StreamError Stream :=
  if s.inTransaction then .ok ({ s with inTransaction := false }.raiseDelivered transactionEnd)
  else .error .commitOutside

/-- Stamps a decoded change with the position it arrives with and its transaction. -/
def deliverChange (s : Stream) (decoded : LSN → Xid → ChangeEvent) :
    Except StreamError ChangeEvent :=
  if s.inTransaction then .ok (decoded s.delivered s.xid) else .error .changeOutside

/-- Reports to the server that everything at or below `lsn` is applied. -/
def confirm (s : Stream) (lsn : LSN) : Except StreamError Stream :=
  if lsn < s.confirmed then .error (.confirmBelow lsn s.confirmed)
  else if lsn > s.delivered then .error (.confirmBeyond lsn s.delivered)
  else .ok { s with confirmed := lsn }

variable {s : Stream} {lsn : LSN}

@[simp]
theorem confirmed_raiseDelivered : (s.raiseDelivered lsn).confirmed = s.confirmed := by
  rw [raiseDelivered]; split <;> rfl

theorem delivered_raiseDelivered :
    (s.raiseDelivered lsn).delivered = if lsn > s.delivered then lsn else s.delivered := by
  rw [raiseDelivered]; split <;> rfl

@[simp]
theorem confirmed_handleKeepalive : (s.handleKeepalive lsn).confirmed = s.confirmed := by
  rw [handleKeepalive]; split <;> simp

theorem delivered_handleKeepalive :
    (s.handleKeepalive lsn).delivered
      = if s.inTransaction then s.delivered
        else if lsn > s.delivered then lsn else s.delivered := by
  rw [handleKeepalive]
  split <;> simp_all [delivered_raiseDelivered]

end Stream

end PgSprite.Decode
