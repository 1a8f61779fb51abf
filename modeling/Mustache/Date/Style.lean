/-!
This module contains the named styles of dates in several languages.
-/

namespace Mustache

/--
The patterns behind the four named styles.
-/
structure DateStyles where
  full : String
  long : String
  medium : String
  short : String
deriving DecidableEq, Repr

namespace DateStyles

def english : DateStyles := ⟨"EEEE, MMMM d, yyyy", "MMMM d, yyyy", "MMM d, yyyy", "M/d/yy"⟩

def byLanguage : List (String × DateStyles) :=
  [
    ("en", english),
    ("de", ⟨"EEEE, d. MMMM yyyy", "d. MMMM yyyy", "dd.MM.yyyy", "dd.MM.yy"⟩),
    ("es", ⟨"EEEE d' de 'MMMM' de 'yyyy", "d' de 'MMMM' de 'yyyy", "d MMM yyyy", "d/MM/yy"⟩),
    ("fr", ⟨"EEEE d MMMM yyyy", "d MMMM yyyy", "d MMM yyyy", "dd/MM/yy"⟩),
    ("it", ⟨"EEEE d MMMM yyyy", "d MMMM yyyy", "d-MMM-yyyy", "dd/MM/yy"⟩),
    ("ja", ⟨"yyyy'年'M'月'd'日' EEEE", "yyyy/MM/dd", "yyyy/MM/dd", "yy/MM/dd"⟩),
    ("nl", ⟨"EEEE d MMMM yyyy", "d MMMM yyyy", "d MMM yyyy", "d-M-yy"⟩),
    ("pt", ⟨"EEEE, d' de 'MMMM' de 'yyyy", "d' de 'MMMM' de 'yyyy", "dd/MM/yyyy", "dd/MM/yy"⟩),
    ("zh", ⟨"yyyy'年'M'月'd'日' EEEE", "yyyy'年'M'月'd'日'", "yyyy-M-d", "yy-M-d"⟩)
  ]

def ofLanguage (language : String) : DateStyles :=
  (byLanguage.lookup language).getD english

def pattern? (styles : DateStyles) (name : String) : Option String :=
  match name with
  | "full" => some styles.full
  | "long" => some styles.long
  | "medium" => some styles.medium
  | "short" => some styles.short
  | _ => none

end DateStyles

end Mustache
