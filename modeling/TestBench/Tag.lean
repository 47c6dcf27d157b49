/-! Tags of configuration values. A tag is shown behind an exclamation mark, and a mark that it
begins with itself counts as that one. -/
namespace TestBench.Tag

/-- The tag without the mark it may begin with, unless nothing else is left. -/
def bare (tag : String) : String :=
  match tag.toList with
  | '!' :: c :: rest => String.ofList (c :: rest)
  | _ => tag

def shown (tag : String) : String := "!" ++ bare tag

def same (s t : String) : Bool := bare s == bare t

end TestBench.Tag
