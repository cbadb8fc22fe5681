/-! Styled terminal output in ANSI escape sequences. -/
namespace Reconciler

inductive Style
  | red
  | green
  | yellow
  | blue
  | bold
  | dim
deriving DecidableEq

namespace Style

def code : Style → String
  | .red => "31"
  | .green => "32"
  | .yellow => "33"
  | .blue => "34"
  | .bold => "1"
  | .dim => "2"

def escape (code : String) : List Char := '\x1b' :: '[' :: (code.toList ++ ['m'])

def reset : List Char := escape "0"

/-- Resume a style behind every reset inside a text. -/
def resume (style : Style) : List Char → List Char
  | '\x1b' :: '[' :: '0' :: 'm' :: r => reset ++ escape style.code ++ style.resume r
  | c :: r => c :: style.resume r
  | [] => []

def paint (style : Style) (color : Bool) (s : String) : String :=
  if color then .ofList (escape style.code ++ style.resume s.toList ++ reset) else s

end Style
end Reconciler
