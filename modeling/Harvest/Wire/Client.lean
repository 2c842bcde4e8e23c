import Harvest.Call
import Harvest.Failure
import Harvest.Page
import Harvest.Text.Blank
import Harvest.Value.Pairs

namespace Harvest.Wire

structure Setup where
  base : Option String
  timeout : Value
  headers : Fields

namespace Setup

def defaultTimeout : Value :=
  (Decimal.Double.ofDecimal? false 30 0).elim .null .double

def defaultHeaders : Fields :=
  [("Accept", .str "application/json")]

def readBase (v : Value) : Except Failure (Option String) :=
  if v.isBlank then .ok none
  else match v with
    | .str s => .ok (some (String.ofList (Text.trimEnd (· == '/') s.toList)))
    | _ => .error .shapeless

def readHeaders (v : Value) : Except Failure Fields :=
  if v.isBlank then .ok defaultHeaders
  else match v with
    | .obj members => .ok (Members.putAll defaultHeaders members)
    | _ => .error .misfit

def make (base timeout headers : Value) : Except Failure Setup := do
  return ⟨← readBase base, timeout, ← readHeaders headers⟩

def isAbsolute (path : String) : Bool :=
  "http://".toList.isPrefixOf path.toList || "https://".toList.isPrefixOf path.toList

def urlFor (c : Setup) (path : String) : String :=
  match c.base with
  | none => path
  | some base =>
    if base == "" || isAbsolute path then path
    else base ++ "/" ++ String.ofList (path.toList.dropWhile (· == '/'))

/-- The address of what is given for a path. Without a base address nothing is done with it, so that
it need not be a text. -/
def addressOf (c : Setup) (path : Value) : Except Failure Value :=
  match path with
  | .str path => .ok (.str (c.urlFor path))
  | v => if c.base.getD "" == "" then .ok v else .error .shapeless

end Setup

/-- A query argument on the wire: a null is left out, a flag becomes a word, numbers and texts stay,
and all else becomes text. -/
def encodeArgument : Value → Option Value
  | .null => none
  | .bool b => some (.str (if b then "true" else "false"))
  | .int n => some (.int n)
  | .double d => some (.double d)
  | .str s => some (.str s)
  | v => some (.str v.text)

def encodeArguments (args : Fields) : Fields :=
  args.filterMap fun a => (encodeArgument a.2).map (a.1, ·)

structure Sent where
  verb : String
  url : String
  params : Fields
  headers : Fields
  body : Option Value

def Setup.sent (setup : Setup) (c : Call) : Sent where
  verb := c.method.verb
  url := setup.urlFor c.path
  params := encodeArguments c.queryArgs
  headers := c.headers.map fun h => (h.1, .str h.2.text)
  body := match c.body with
    | .null => none
    | body => some body

/-- Whether a query argument can be encoded: an integer is handed on as it is, but what has to
become text must have one. -/
def isEncodable : Value → Bool
  | .int _ => true
  | v => v.isWritable

def isSendable (c : Call) : Bool :=
  (c.queryArgs.all fun a => isEncodable a.2) && c.headers.all fun h => h.2.isWritable

inductive Body where
  | data (v : Value)
  | malformed (message : String)
  /-- The session fails over the body, and names a status. -/
  | refused (status : Value) (message : String)
  | interrupted (message : String)

inductive Exchange where
  | broken (message : String)
  /-- No answer came that the session could take, but it names a status. -/
  | refused (status : Value) (message : String)
  /-- The session failed in a way that is not known. -/
  | foreign (message : String)
  | answered (status : Value) (message : String) (headers : Value) (body : Body)

def isFailing (status : Value) : Except Failure Bool :=
  match Value.less? status (.int 400) with
  | some below => .ok !below
  | none => .error .misfit

def readPage (data status headers : Value) : Except Failure Page := do
  let pairs ← headers.pairs
  Failure.ofChecked .page (Page.mk data <$> (Config.Field.integer status).under (.name "status")
    <*> (Config.Field.textPairs pairs).under (.name "headers"))

namespace Sent

def lost (sent : Sent) (message : String) : Failure :=
  .transport (sent.verb ++ " " ++ sent.url ++ " failed: " ++ message) .null

def failedWith (sent : Sent) (status : Value) (message : String) : Failure :=
  if status.isWritable then
    .transport (sent.verb ++ " " ++ sent.url ++ " failed with status " ++ status.text ++ ": " ++
      message) status
  else .unreadable

/-- The page of an exchange: every answer with a status below 400 and a JSON body. -/
def receive (sent : Sent) : Exchange → Except Failure Page
  | .broken message => .error (sent.lost message)
  | .refused status message => .error (sent.failedWith status message)
  | .foreign message => .error (.collaborator message)
  | .answered status message headers body => do
    if ← isFailing status then
      throw (sent.failedWith status message)
    else match body with
      | .malformed message =>
        throw (.transport
          (sent.verb ++ " " ++ sent.url ++ " returned a non-JSON body: " ++ message) status)
      | .refused status message => throw (sent.failedWith status message)
      | .interrupted message => throw (sent.lost message)
      | .data data => readPage data status headers

end Sent

def Setup.execute (setup : Setup) (c : Call) (exchange : Exchange) : Except Failure Page :=
  if isSendable c then (setup.sent c).receive exchange else .error .unreadable

end Harvest.Wire
