import ShortcutRelay.Store.Request

/-!
# Backends

A backend keeps what a store holds. It can be read as a whole and written as a whole, and it can
hold a section during which nobody else writes; the requests to a store are made of these.

* `Backend` : the operations of a backend;
* `Backend.answer` : the answer to a request;
* `Backend.run` : the result of a store program on a backend;
* `MemoryStore` : a backend without faults that keeps the order in which keys came.
-/

namespace ShortcutRelay

abbrev BackendM (σ : Type) := ExceptT Failure (StateM σ)

/-- What keeps the contents of a store. `obtain` is what opening the store does; `textRead` runs
before a key is read as a text. -/
class Backend (σ : Type) where
  obtain : BackendM σ Unit
  load : BackendM σ Contents
  save : Contents → BackendM σ Unit
  enter : BackendM σ Unit := pure ()
  leave : StateM σ Unit := pure ()
  textRead : String → BackendM σ Unit := fun _ => pure ()

namespace Backend

variable {σ : Type} [Backend σ] {α : Type}

def exclusively (act : BackendM σ α) : BackendM σ α := do
  enter
  ExceptT.mk do
    let result ← act.run
    leave
    return result

/-- The contents without some keys, and whether that changed anything. -/
def erased (keys : List String) (c : Contents) : Contents × Bool :=
  (keys.foldl OrderedMap.erase c, keys.any c.contains)

/-- The answer to a request. Removals write only what changed. -/
def answer : (r : StoreRequest) → BackendM σ r.Result
  | .value key => do return ((← load).get? key).getD .null
  | .text key => do
    textRead key
    return textAt (← load) key
  | .put key value => exclusively do save ((← load).put key value)
  | .remove key => exclusively do
    let (c, changed) := erased [key] (← load)
    if changed then save c
  | .removeAll keys => exclusively do
    let (c, changed) := erased keys (← load)
    if changed then save c
  | .keys => do return (← load).keys
  | .snapshot => load

def run (p : StoreM α) : BackendM σ α :=
  ExceptT.mk (Program.run (I := storeInterface) (fun r => (answer r).run) p.run)

end Backend

/-! ## Stores in memory -/

/-- A store without faults. -/
structure MemoryStore where
  contents : Contents := {}

instance : Backend MemoryStore where
  obtain := pure ()
  load := return (← get).contents
  save c := set { contents := c : MemoryStore }

end ShortcutRelay
