
namespace Text

/-- What reading in text mode makes of line ends. -/
def universalNewlines : List Char → List Char
  | [] => []
  | '\r' :: '\n' :: rest => '\n' :: universalNewlines rest
  | '\r' :: rest => '\n' :: universalNewlines rest
  | c :: rest => c :: universalNewlines rest

def isLineEnd (c : Char) : Bool :=
  (0x0A ≤ c.val && c.val ≤ 0x0D) || (0x1C ≤ c.val && c.val ≤ 0x1E) || c.val == 0x85 ||
  c.val == 0x2028 || c.val == 0x2029

/-- `str.splitlines` after the start of a line, kept in reverse. -/
def splitlinesFrom : List Char → List Char → List (List Char)
  | [], [] => []
  | start, [] => [start.reverse]
  | start, '\r' :: '\n' :: rest => start.reverse :: splitlinesFrom [] rest
  | start, c :: rest =>
    if isLineEnd c then start.reverse :: splitlinesFrom [] rest
    else splitlinesFrom (c :: start) rest

def splitlines (text : List Char) : List (List Char) := splitlinesFrom [] text

example : splitlines "# a\r\n\nb".toList = ["# a".toList, [], "b".toList] := by decide

end Text
