/-!
# Entries of the shared store

The names of the entries through which an intent and its application talk to each other.

* `commandIdentifier`, `commandNonce`, `commandTimestamp`, `userConfirmed` : the parts of a command;
* `parameterEntry`, `parameterTagEntry` : a parameter of the command and the tag of its type;
* `replyEntry` : the reply to the command with a nonce;
* `stateEntry` : a value of the application's state.
-/

namespace ShortcutRelay.Protocol

def commandIdentifier : String :=
  "IosIntentsPendingCommand"

def commandNonce : String :=
  "IosIntentsCommandNonce"

def commandTimestamp : String :=
  "IosIntentsCommandTimestamp"

def userConfirmed : String :=
  "IosIntentsUserConfirmed"

def commandEntries : List String :=
  [commandIdentifier, commandNonce, commandTimestamp, userConfirmed]

def parameterStart : String :=
  "IosIntentsParam_"

def parameterTagStart : String :=
  "IosIntentsParamType_"

def replyStart : String :=
  "IosIntentsResponse_"

def parameterEntry (name : String) : String :=
  parameterStart ++ name

def parameterTagEntry (name : String) : String :=
  parameterTagStart ++ name

def replyEntry (nonce : String) : String :=
  replyStart ++ nonce

def stateStart : String :=
  "appState_"

def stateEntry (name : String) : String :=
  stateStart ++ name

def dateTag : String :=
  "date"

def booleanTag : String :=
  "boolean"

def commandNotification : String :=
  "eu.eblank.likrot.iosintents.shortcut"

def replyTimeout : Float :=
  5.0

def lookInterval : Float :=
  0.1

end ShortcutRelay.Protocol
