import ShortcutRelay.App.Dispatch
import ShortcutRelay.Protocol.Command

/-!
# The bridge

* `Bridge.start`, `Bridge.stop` : begin and end observing the notification;
* `Bridge.setCallback` : says whom commands are handed to;
* `Bridge.sharedText`, `Bridge.sharedNumber` and their setters, `Bridge.postReply` : the
  store as the application uses it.
-/

namespace ShortcutRelay.Bridge
open Protocol App

variable {σ κ : Type}

/-- Changes the bridge, if there is one. -/
def update (f : Bridge κ → Bridge κ) : AppM σ κ Unit :=
  modify fun w => { w with bridge := w.bridge.map f }

def isStarted (w : World σ κ) : Bool :=
  (w.bridge.bind (·.token)).isSome

def start : AppM σ κ Unit := do
  let w ← get
  if !isStarted w then
    let center := w.center.add commandNotification .bridge
    set { w with center }
    update fun b => { b with token := some center.lastToken }

def stop : AppM σ κ Unit := do
  let w ← get
  if let some token := w.bridge.bind (·.token) then
    set { w with center := w.center.remove token }
    update fun b => { b with token := none }

variable [Backend σ]

/-- Says whom commands are handed to, and looks for one that was left before. -/
def setCallback (host : Host σ κ) (callback : Callback κ) : AppM σ κ Unit := do
  update fun b => { b with callback := some callback }
  discard (attend host)

/-! ## The store -/

def sharedText (key : String) : AppM σ κ (Option String) :=
  withStore (Store.text key)

def shareText (key : String) (value : Document) : AppM σ κ Unit :=
  withStore (Store.set key value)

def sharedNumber (key : String) : AppM σ κ (Option Float) :=
  withStore (Store.number key)

def shareNumber (key : String) (value : Document) : AppM σ κ Unit :=
  withStore do
    match value with
    | .null => Store.set key .null
    | value => Store.set key (.float (← Store.ofNumber value.toFloat))

def postReply (nonce : String) (message : Option String) : AppM σ κ Unit :=
  withStore (Protocol.postReply nonce message)

end ShortcutRelay.Bridge
