import ApiCommand.Error.Fault
import ApiCommand.Exchange.Basic
import ApiCommand.Json.Printer
import ApiCommand.Text.Ascii
import ApiCommand.Text.Percent
import ApiCommand.Unicode.WhiteSpace

/-!
# Runtime expressions

An expression names a part of an exchange: the address, method or status, a parameter, or a value in
a body. It starts with a dollar sign. A text that does not may hold expressions in braces and is
then a template; everything else is a literal, which stands for itself.
-/

namespace ApiCommand

/-- The request or the response. -/
inductive Side where
  | request | response
  deriving DecidableEq

/-- The name of a side. -/
def Side.name (s : Side) : String :=
  match s with
  | request => "request"
  | response => "response"

/-- A part of an exchange. -/
inductive Expression where
  /-- The address that the request went to. -/
  | url
  /-- The method of the request. -/
  | method
  /-- The status of the response. -/
  | statusCode
  /-- The value of a parameter of the request, or of a header of the response. -/
  | parameter (side : Side) (location : Location) (name : String)
  /-- The value in a body at the text of a pointer. -/
  | body (side : Side) (pointer : String)
  deriving DecidableEq

namespace Expression

/-- The text of an expression. -/
def text (e : Expression) : String :=
  match e with
  | url => "$url"
  | method => "$method"
  | statusCode => "$statusCode"
  | parameter side location name => "$" ++ side.name ++ "." ++ location.name ++ "." ++ name
  | body side pointer => "$" ++ side.name ++ ".body#" ++ pointer

/-- The text is on one line. -/
def isOneLine (cs : List Char) : Bool := !cs.contains '\n'

/-- Reads a location, a dot and a name, which is not empty. -/
def readParameter? (cs : List Char) : Option (Location × String) :=
  [Location.path, .query, .header, .cookie].findSome? fun location =>
    (Text.after? (location.name ++ ".").toList cs).bind fun name =>
      if name.isEmpty || !isOneLine name then none else some (location, String.ofList name)

/-- Reads what may follow the word for a body: nothing, or `#` and a pointer. -/
def readPointer? (cs : List Char) : Option String :=
  match cs with
  | [] => some ""
  | '#' :: pointer => if isOneLine pointer then some (String.ofList pointer) else none
  | _ => none

/-- Reads what follows the name of a side and a dot. Of a response, only headers can be named. -/
def readPart (text : String) (side : Side) (cs : List Char) : Except Fault Expression :=
  match readParameter? cs, (Text.after? "body".toList cs).bind readPointer? with
  | some (location, name), _ =>
    if side = .response ∧ location ≠ .header then .error (.notInResponse text)
    else .ok (parameter side location name)
  | none, some pointer => .ok (body side pointer)
  | none, none => .error (.invalidExpression text)

/-- Reads an expression. -/
def parse (text : String) : Except Fault Expression :=
  if text = "$url" then .ok url
  else if text = "$method" then .ok method
  else if text = "$statusCode" then .ok statusCode
  else
    match Text.after? "$request.".toList text.toList,
        Text.after? "$response.".toList text.toList with
    | some rest, _ => readPart text .request rest
    | none, some rest => readPart text .response rest
    | none, none => .error (.invalidExpression text)

/-! ## Values -/

/-- The pairs of a query, which stands behind the first question mark of an address. -/
def queryPairs (url : String) : List (String × String) :=
  match Text.cutText '?' url with
  | none => []
  | some (_, query) =>
    (Text.pieces '&' query).map fun pair => (Text.cutText '=' pair).getD (pair, "")

/-- The value of a name in a query. -/
def queryValue? (url name : String) : Option String :=
  ((queryPairs url).find? fun pair => Text.Percent.decode? pair.1 == some name).bind fun pair =>
    Text.Percent.decode? pair.2

/-- The pairs of a cookie header. -/
def cookiePairs (header : String) : List (String × String) :=
  (Text.pieces ';' header).filterMap fun pair => Text.cutText '=' (Unicode.trimText pair)

/-- The value of a parameter, read from the request as it was sent. -/
def sentValue? (r : Request) (location : Location) (name : String) : Option String :=
  match location with
  | .path => none
  | .query => queryValue? r.url name
  | .header => Text.findHeader r.headers name
  | .cookie =>
    (Text.findHeader r.headers "Cookie").bind fun header =>
      ((cookiePairs header).find? fun pair => pair.1 == name).map Prod.snd

/-- The value of a parameter of the request: the input it was called with, or what was sent. -/
def requestValue? (r : Result) (location : Location) (name : String) : Option Json :=
  (r.source.valueAt location name).or ((sentValue? r.request location name).map Json.string)

/-- The body of a side. -/
def bodyOf (r : Result) (side : Side) : Option Json :=
  match side with
  | .request => r.request.body
  | .response => r.response.body

/-- The value that an expression has in an exchange, if there is one. -/
def evaluate (e : Expression) (r : Result) : Option Json :=
  match e with
  | url => some (.string r.request.url)
  | method => some (.string r.request.method)
  | statusCode => some (.nat r.response.status)
  | parameter .response _ name => (Text.findHeader r.response.headers name).map Json.string
  | parameter .request location name => requestValue? r location name
  | body side pointer =>
    (bodyOf r side).bind fun v => (Pointer.readTokens? pointer).bind fun tokens => v.at? tokens

end Expression

/-- A piece of a template. -/
inductive Piece where
  /-- Text that is kept. -/
  | text (s : String)
  /-- An expression that is replaced by its value. -/
  | expression (e : Expression)
  deriving DecidableEq

/-- What a link passes on. -/
inductive Formula where
  /-- The value of an expression. -/
  | expression (e : Expression)
  /-- A text made of pieces. -/
  | template (pieces : List Piece)
  /-- A fixed value. -/
  | literal (v : Json)

namespace Formula

/-- Neither an opening nor a closing brace. -/
def isPlain (c : Char) : Bool := c != '{' && c != '}'

/-- The inside of a factor at the start of a text, and what follows the factor. A factor is a text
in braces that starts with a dollar sign and goes on for at least one character without braces. -/
def factor? (cs : List Char) : Option (List Char × List Char) :=
  match cs with
  | '{' :: '$' :: rest =>
    match rest.takeWhile isPlain, rest.dropWhile isPlain with
    | c :: inside, '}' :: after => some ('$' :: c :: inside, after)
    | _, _ => none
  | _ => none

/-- A stretch of a text that is a factor, given by its inside, or that holds none. -/
inductive Stretch where
  | factor (inside : List Char)
  | plain (cs : List Char)

/-- Puts a character in front of stretches, as part of the first one if that is plain. -/
def consPlain (c : Char) (stretches : List Stretch) : List Stretch :=
  match stretches with
  | .plain cs :: rest => .plain (c :: cs) :: rest
  | rest => .plain [c] :: rest

/-- Cuts a text into stretches after skipping characters that belong to a factor already found. -/
def cutFrom (skip : Nat) (cs : List Char) : List Stretch :=
  match skip, cs with
  | _, [] => []
  | skip + 1, _ :: rest => cutFrom skip rest
  | 0, c :: rest =>
    match factor? (c :: rest) with
    | some (inside, _) => .factor inside :: cutFrom (inside.length + 1) rest
    | none => consPlain c (cutFrom 0 rest)

/-- The successive leftmost factors of a text and what is between them. -/
def stretches (s : String) : List Stretch := cutFrom 0 s.toList

/-- The stretch is a factor. -/
def Stretch.isFactor (s : Stretch) : Bool :=
  match s with
  | .factor _ => true
  | .plain _ => false

/-- The piece of a template for a stretch. -/
def Stretch.piece (s : Stretch) : Except Fault Piece :=
  match s with
  | .plain cs => .ok (.text (String.ofList cs))
  | .factor inside => (Expression.parse (String.ofList inside)).map .expression

/-- The formula that a text denotes. -/
def ofText (s : String) : Except Fault Formula :=
  if s.toList.head? = some '$' then (Expression.parse s).map expression
  else
    let found := stretches s
    if found.any Stretch.isFactor then (found.mapM Stretch.piece).map template
    else .ok (literal (.string s))

/-- The formula that a value denotes. -/
def parse (v : Json) : Except Fault Formula :=
  match v with
  | .string s => ofText s
  | v => .ok (literal v)

/-- The text that a piece stands for in an exchange. -/
def pieceText? (r : Result) (p : Piece) : Option String :=
  match p with
  | .text s => some s
  | .expression e => (e.evaluate r).map Json.plainText

/-- The value that a formula has in an exchange, if there is one. -/
def evaluate (f : Formula) (r : Result) : Option Json :=
  match f with
  | expression e => e.evaluate r
  | template pieces =>
    (pieces.mapM (pieceText? r)).map fun texts => .string (String.join texts)
  | literal v => some v

/-- The value that a value denotes in an exchange. One that is no formula denotes nothing. -/
def resolve (v : Json) (r : Result) : Option Json :=
  match parse v with
  | .ok f => f.evaluate r
  | .error _ => none

end Formula

end ApiCommand
