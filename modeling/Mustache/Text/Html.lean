/-!
This module contains the escaping of text for HTML.
-/

namespace Mustache.Text

def escapeChar (c : Char) : List Char :=
  match c with
  | '&' => "&amp;".toList
  | '<' => "&lt;".toList
  | '>' => "&gt;".toList
  | '\x22' => "&quot;".toList
  | '\x27' => "&#x27;".toList
  | '\x60' => "&#x60;".toList
  | '=' => "&#x3D;".toList
  | c => [c]

/--
Writes a text so that HTML shows it as it is, inside an element as well as inside an attribute.
-/
def escapeHtml (s : String) : String :=
  String.ofList (s.toList.flatMap escapeChar)

end Mustache.Text
