import ImageLookup.Http.Url

/-! # Requests and answers

All requests are `GET` requests.  A request is answered with a status, headers and a body that
is still to be read; or it fails, and the fault says how.  Every answer and every body takes
some time to arrive.

A `Network` is anything that answers requests, and that knows which texts are addresses: what an
address is, down to the names of hosts in other alphabets, is a matter of what carries the requests.
`Network.offline` is the network on which no host accepts connections; it reads addresses as
`Url.read?` does.

How requests are carried is left out: connections and their reuse, redirects, encryption and the
limit of a single request are inside of the network, and only what comes back is described.
-/

namespace ImageLookup.Http

structure Request where
  /-- The address as the program built it. -/
  url : String
  /-- Pairs that are added to the query of the address. -/
  query : List (String × String)
  accept : String
  authorization : Option String
deriving DecidableEq, Repr

namespace Request

def get (url : String) : Request := ⟨url, [], "*/*", none⟩

end Request

/-- Whether a text may be the value of a header: it has no control character but the tab. -/
def isHeaderValue (s : String) : Bool :=
  s.toList.all fun c => c == '\t' || (0x20 ≤ c.toNat && c.toNat != 0x7F)

/-- Whether a request can be put on the wire at all. -/
def Request.isWellFormed (q : Request) : Bool :=
  (Url.read? q.url).any (·.host.isPlain) && q.authorization.all isHeaderValue

/-! ### Faults -/

/-- Why a request was not answered, or an answer not read to its end. -/
inductive Fault where
  | timedOut
  | noConnection
  | malformedRequest
  | interrupted
deriving DecidableEq, Repr

/-- The text of a fault of a request to `url` that may take `limit` seconds. -/
def Fault.message (url : String) (limit : Nat) : Fault → String
  | .timedOut => "Request to " ++ url ++ " timed out after " ++ toString limit ++ " seconds"
  | .noConnection => "Failed to connect to " ++ url
  | .malformedRequest => "Invalid request URL " ++ url
  | .interrupted => "Network error communicating with " ++ url

/-! ### Answers -/

structure Timed (α : Type) where
  outcome : α
  elapsed : Nat
deriving DecidableEq, Repr

structure Response where
  status : Nat
  headers : List (String × Octets)
  body : Timed (Except Fault Octets)

/-- The text of a header value, where it consists of visible ASCII characters, blanks and
    tabs. -/
def visibleText? (value : Octets) : Option String :=
  if value.all fun o => o == 0x09 || (0x20 ≤ o && o ≤ 0x7E) then
    some (String.ofList (value.map Char.ofUInt8))
  else none

namespace Response

/-- The values of a header, whose name is compared without regard to ASCII case. -/
def values (r : Response) (name : String) : List Octets :=
  (r.headers.filter fun h =>
    Text.lowerAscii h.1.toList == Text.lowerAscii name.toList).map Prod.snd

/-- The values of a header that are visible text. -/
def texts (r : Response) (name : String) : List String :=
  (r.values name).filterMap visibleText?

def text? (r : Response) (name : String) : Option String :=
  (r.values name).head?.bind visibleText?

end Response

/-! ### Networks -/

/-- Something that answers requests, depending on a state of its own. -/
structure Network (σ : Type) where
  answer : Request → σ → Timed (Except Fault Response) × σ
  /-- Whether a text is an address at which a token may be asked for.  Which names are hosts depends on
      tables of Unicode that are not part of this library. -/
  isWeb : String → Bool := Url.isWeb

/-- The network on which no host accepts connections. -/
def Network.offline : Network Unit where
  answer q _ := (⟨.error (if q.isWellFormed then .noConnection else .malformedRequest), 0⟩, ())

end ImageLookup.Http
