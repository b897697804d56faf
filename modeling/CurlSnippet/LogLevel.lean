import CurlSnippet.Letter.Case
import CurlSnippet.Quoted

/-!
Names of levels of logging. Any name is taken, an unknown one for the usual level, but for two that
belong to the layouts of log lines.
-/

namespace CurlSnippet.LogLevel

/-- The layout of a log line unless another is asked for. -/
def layout : String := "%(levelname)s:%(name)s:%(message)s"

/-- The layouts that there are, by the character that marks their fields. -/
def layouts : String :=
  "\x7b'%': (<class 'logging.PercentStyle'>, '" ++ layout ++ "'), " ++
  "'\x7b': (<class 'logging.StrFormatStyle'>, " ++
  "'\x7blevelname\x7d:\x7bname\x7d:\x7bmessage\x7d'), " ++
  "'$': (<class 'logging.StringTemplateStyle'>, " ++
  "'$\x7blevelname\x7d:$\x7bname\x7d:$\x7bmessage\x7d')\x7d"

/-- A name that cannot be a level: that of the usual layout, or that of all of them. -/
inductive Fault where
  | layout
  | layouts
  deriving DecidableEq, Repr

def Fault.message : Fault → String
  | layout => "Unknown level: " ++ quoted LogLevel.layout
  | layouts => "Level not an integer or a valid string: " ++ LogLevel.layouts

/-- Why a name is no level, if it is none. -/
def fault? (name : String) : Option Fault :=
  let name := upper name
  if name = "BASIC_FORMAT" then some .layout
  else if name = "_STYLES" then some .layouts
  else none

end CurlSnippet.LogLevel
