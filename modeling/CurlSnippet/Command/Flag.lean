/-!
The flags of a curl call that are understood, by what they do. Several names may stand for one flag;
flags that change nothing about the request are known only so that they take no argument.
-/

namespace CurlSnippet

inductive Flag where
  | method
  | header
  | body
  | user
  | json
  | form
  | cookie
  | userAgent
  | referer
  | plain
  deriving DecidableEq, Repr

namespace Flag

/-- Every name with its flag, in the order of the names. -/
def names : List (String × Flag) := [
  ("--compressed", plain),
  ("--cookie", cookie),
  ("--data", body),
  ("--data-ascii", body),
  ("--data-binary", body),
  ("--data-raw", body),
  ("--form", form),
  ("--header", header),
  ("--include", plain),
  ("--insecure", plain),
  ("--json", json),
  ("--location", plain),
  ("--referer", referer),
  ("--request", method),
  ("--silent", plain),
  ("--user", user),
  ("--user-agent", userAgent),
  ("--verbose", plain),
  ("-A", userAgent),
  ("-F", form),
  ("-H", header),
  ("-L", plain),
  ("-X", method),
  ("-b", cookie),
  ("-d", body),
  ("-e", referer),
  ("-i", plain),
  ("-k", plain),
  ("-s", plain),
  ("-u", user),
  ("-v", plain)]

def ofName? (name : String) : Option Flag := names.lookup name

def takesArgument : Flag → Bool
  | plain => false
  | _ => true

end Flag

end CurlSnippet
