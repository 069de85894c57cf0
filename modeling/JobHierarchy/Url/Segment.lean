import JobHierarchy.FolderPath
/-!
# Item names in URLs

An item's URL ends in `job/NAME/` for each name on the way to it. The five characters that would
end or change a URL path are written as a percent sign and two digits; `decode` undoes that.
-/

namespace JobHierarchy.Segment

/-- How a character of a name is written in a URL path. -/
def encodeChar : Char → List Char
  | '%' => ['%', '2', '5']
  | ' ' => ['%', '2', '0']
  | '+' => ['%', '2', 'B']
  | '#' => ['%', '2', '3']
  | '?' => ['%', '3', 'F']
  | c => [c]

def encodeChars (cs : List Char) : List Char := cs.flatMap encodeChar

/-- The five codes become their characters again; any other text stands for itself. -/
def decodeChars : List Char → List Char
  | '%' :: '2' :: '5' :: rest => '%' :: decodeChars rest
  | '%' :: '2' :: '0' :: rest => ' ' :: decodeChars rest
  | '%' :: '2' :: 'B' :: rest => '+' :: decodeChars rest
  | '%' :: '2' :: '3' :: rest => '#' :: decodeChars rest
  | '%' :: '3' :: 'F' :: rest => '?' :: decodeChars rest
  | c :: rest => c :: decodeChars rest
  | [] => []

def encode (name : String) : String := String.ofList (encodeChars name.toList)

def decode (text : String) : String := String.ofList (decodeChars text.toList)

end JobHierarchy.Segment

namespace JobHierarchy

/-- The part of a URL that names one item below its folder. -/
def itemStep (name : String) : String := "job/" ++ Segment.encode name ++ "/"

/-- The URL of the folder below the server's base URL: `job/a/job/b/`. -/
def FolderPath.urlPath (path : FolderPath) : String :=
  String.join (path.segments.map itemStep)

end JobHierarchy
