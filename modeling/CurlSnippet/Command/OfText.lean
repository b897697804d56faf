import CurlSnippet.Command
import CurlSnippet.Request.OfJson

/-!
Reading a call from a text that may hold lone surrogates. They are no white space, have no case and
mean nothing to the reader, so they stay where they are in their words. What is passed over may hold
them; a request may not, and its checks refuse them.
-/

namespace CurlSnippet

namespace CodePoint

def isBlank (p : CodePoint) : Bool := p.char?.any CurlSnippet.isBlank

end CodePoint

namespace Text

/-- The text without the white space at both ends. -/
def trim (t : Text) : Text :=
  (((t.dropWhile CodePoint.isBlank).reverse).dropWhile CodePoint.isBlank).reverse

def upper (t : Text) : Text :=
  t.flatMap fun
    | .scalar c => Text.ofChars (Letter.upperChar c)
    | .surrogate o => [.surrogate o]

end Text

namespace Words

/-- Where the reader of a text stands; see `Mode`. -/
inductive TextMode where
  | blank
  | bare (word : Text)
  | single (word : Text)
  | double (word : Text)
  | escape (word : Text)

def unescapePoint : CodePoint → CodePoint
  | .scalar c => .scalar (unescape c)
  | .surrogate o => .surrogate o

def scanText : TextMode → Text → List Text
  | .blank, [] => []
  | .bare w, [] => [w.reverse]
  | .single w, [] => [w.reverse]
  | .double w, [] => [w.reverse]
  | .escape w, [] => [(.scalar '\\' :: w).reverse]
  | .blank, p :: rest =>
    if p.isBlank then scanText .blank rest
    else if p = .scalar '\'' then scanText (.single []) rest
    else if p = .scalar '"' then scanText (.double []) rest
    else scanText (.bare [p]) rest
  | .bare w, p :: rest =>
    if p.isBlank then w.reverse :: scanText .blank rest else scanText (.bare (p :: w)) rest
  | .single w, p :: rest =>
    if p = .scalar '\'' then w.reverse :: scanText .blank rest
    else scanText (.single (p :: w)) rest
  | .double w, p :: rest =>
    if p = .scalar '"' then w.reverse :: scanText .blank rest
    else if p = .scalar '\\' then scanText (.escape w) rest
    else scanText (.double (p :: w)) rest
  | .escape w, p :: rest => scanText (.double (unescapePoint p :: w)) rest

def joinTextLines : Text → Text
  | .scalar '\\' :: .scalar '\n' :: rest => .scalar ' ' :: joinTextLines rest
  | .scalar '\\' :: .scalar '\r' :: .scalar '\n' :: rest => .scalar ' ' :: joinTextLines rest
  | p :: rest => p :: joinTextLines rest
  | [] => []

/-- The words of a line. -/
def ofText (line : Text) : List Text := scanText .blank (joinTextLines line.trim)

end Words

/-- A draft before the check that its texts are strings. The credentials have been checked where
they were given. -/
structure TextDraft where
  url : Text
  method : Text
  headers : Entries Text Text
  body : Option Text
  auth : Option Credentials

namespace TextDraft

def empty : TextDraft := ⟨[], [], [], none, none⟩

def putHeader (d : TextDraft) (name value : Text) : TextDraft :=
  { d with headers := d.headers.put name value }

/-- What stands before and after the first colon. -/
def halves? (t : Text) : Option (Text × Text) := Search.cut? (· == .scalar ':') t

def credentialsOf (t : Text) : Check Credentials :=
  let (user, password) := (halves? t).getD (t, [])
  (Check.both (.under (.ofString "user") (.text (.str user)))
    (.under (.ofString "password") (.text (.str password)))).map fun c => ⟨c.1, c.2⟩

/-- The draft after a flag and its argument; see `Draft.apply`. -/
def apply (d : TextDraft) (f : Flag) (arg : Text) : Check TextDraft :=
  match f with
  | .method => .ok { d with method := arg.upper }
  | .header => match halves? arg with
    | some (name, value) => .ok (d.putHeader name.trim value.trim)
    | none => .ok d
  | .body => .ok { d with body := some arg }
  | .user => (credentialsOf arg).map fun a => { d with auth := some a }
  | .json =>
    .ok (({ d with body := some arg }.putHeader (.ofString "Content-Type")
      (.ofString "application/json")).putHeader (.ofString "Accept") (.ofString "application/json"))
  | .form => .ok { d with body := some (d.body.getD arg) }
  | .cookie => .ok (d.putHeader (.ofString "Cookie") arg)
  | .userAgent => .ok (d.putHeader (.ofString "User-Agent") arg)
  | .referer => .ok (d.putHeader (.ofString "Referer") arg)
  | .plain => .ok d

/-- The draft after a word that is no known flag. -/
def passWord (d : TextDraft) (w : Text) : TextDraft :=
  if w.head? = some (.scalar '-') ∨ d.url ≠ [] then d else { d with url := w }

/-- The draft after the words of a call, up to the first credentials that are no strings. -/
def applyWords (d : TextDraft) : List Text → Check TextDraft
  | [] => .ok d
  | [w] => match w.toString?.bind Flag.ofName? with
    | some f => d.apply f []
    | none => .ok (d.passWord w)
  | w :: a :: rest => match w.toString?.bind Flag.ofName? with
    | some f =>
      if f.takesArgument then d.apply f a >>= fun d => d.applyWords rest
      else d.apply f [] >>= fun d => d.applyWords (a :: rest)
    | none => (d.passWord w).applyWords (a :: rest)

/-- The draft with strings for its texts. -/
def strings (d : TextDraft) : Check Draft :=
  let url := Check.under (.ofString "url") (.text (.str d.url))
  let method := Check.under (.ofString "method") (.text (.str d.method))
  let headers := Check.under (.ofString "headers")
    (.headers (.obj (d.headers.map fun h => (h.1, .str h.2))))
  let body := Check.under (.ofString "body") (.nullable .text (.ofOption .str d.body))
  (url.both (method.both (headers.both body))).map fun (url, method, headers, body) =>
    ⟨url, method, headers, body, d.auth⟩

end TextDraft

namespace Command

/-- The request that the words of a line call for. -/
def ofTexts : List Text → Except CommandError Request
  | [] => .error .notACommand
  | w :: rest =>
    if w.toString?.map lower ≠ some keyword then .error .notACommand
    else match TextDraft.empty.applyWords rest with
      | .error issues => .error (.invalid issues)
      | .ok d =>
        if d.url = [] then .error .missingUrl
        else match d.strings >>= Draft.finish with
          | .ok r => .ok r
          | .error issues => .error (.invalid issues)

/-- The request that a line calls for. -/
def ofText (line : Text) : Except CommandError Request := ofTexts (Words.ofText line)

end Command

end CurlSnippet
