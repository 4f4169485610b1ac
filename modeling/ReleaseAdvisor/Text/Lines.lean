/-!
# Lines

A line ends at a line feed; a carriage return right before that line feed belongs to the ending.
Text after the last line feed is a line too unless it is empty.
-/

namespace ReleaseAdvisor.Text

def dropFinalReturn (line : List Char) : List Char :=
  match line.reverse with
  | '\r' :: rest => rest.reverse
  | _ => line

def lines (text : List Char) : List (List Char) :=
  match (List.splitOn '\n' text).reverse with
  | [] => []
  | last :: ended =>
      ended.reverse.map dropFinalReturn ++ (if last.isEmpty then [] else [last])

def firstLine (text : String) : String :=
  String.ofList ((lines text.toList).headD [])

end ReleaseAdvisor.Text
