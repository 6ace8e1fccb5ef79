import OrderPlatform.Wire.Values

/-! # Messages of the broker

A message as the broker's client hands it to a consumer. Its value may be missing or
empty; each of its headers is one buffer or several, which a consumer joins.
-/

namespace Wire

/-- The text of a value: empty, or with what it parses to (`none` when it is not JSON). -/
inductive RawValue
  | empty
  | text (parsed : Option Json)

inductive HeaderValue
  | one (s : String)
  | many (parts : List String)
  deriving DecidableEq, Repr

def HeaderValue.text : HeaderValue → String
  | .one s => s
  | .many parts => String.join parts

/-- The text a list of buffers is converted to when nothing joins them. -/
def HeaderValue.listText : HeaderValue → String
  | .one s => s
  | .many parts => String.intercalate "," parts

structure KafkaMessage where
  value : Option RawValue
  headers : List (String × Option HeaderValue)
  offset : String

def KafkaMessage.decodedHeaders (m : KafkaMessage) : List (String × String) :=
  m.headers.filterMap fun h => h.2.map fun v => (h.1, v.text)

/-- A message sent with a JSON value and text headers, as it is received. -/
def KafkaMessage.sent (value : Json) (headers : List (String × String)) (offset : String) :
    KafkaMessage where
  value := some (.text (some value))
  headers := headers.map fun h => (h.1, some (.one h.2))
  offset := offset

@[simp] theorem KafkaMessage.decodedHeaders_sent (value : Json) (headers : List (String × String))
    (offset : String) : (sent value headers offset).decodedHeaders = headers := by
  simp only [sent, decodedHeaders, List.filterMap_map]
  exact List.filterMap_some

/--
How a call of `process` ends: the store it leaves, whether the event's handler ran to
completion, and what it throws. The offset is committed when it throws nothing.
-/
structure Conclusion (σ : Type*) where
  store : σ
  handled : Bool
  ended : Except Thrown Unit

/-- An exception is caught, and how its `catch` ends takes its place. -/
def Conclusion.caught {σ : Type*} (c : Conclusion σ) (log : Except Thrown Unit) : Conclusion σ where
  store := c.store
  handled := c.handled
  ended :=
    match c.ended with
    | .ok () => .ok ()
    | .error _ => log

@[simp] theorem Conclusion.ended_caught {σ : Type*} (c : Conclusion σ) :
    (c.caught (.ok ())).ended = .ok () := by
  unfold caught
  cases c.ended <;> rfl

/-- A conclusion that throws nothing handled the event, or found it recorded. -/
def Conclusion.NotDropped {σ : Type*} (c : Conclusion σ) (recorded : Prop) : Prop :=
  c.ended = .ok () → c.handled = true ∨ recorded

end Wire
