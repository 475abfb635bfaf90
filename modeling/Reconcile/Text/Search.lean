namespace Reconcile.Text

def removeFirst (pattern : List Char) : List Char → List Char
  | [] => []
  | c :: rest =>
    if pattern.isPrefixOf (c :: rest) then (c :: rest).drop pattern.length
    else c :: removeFirst pattern rest

def join (separator : Char) (texts : List (List Char)) : List Char :=
  [separator].intercalate texts

end Reconcile.Text
