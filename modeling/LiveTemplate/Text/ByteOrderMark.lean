/-!
# Byte order marks

A byte order mark at the front of a text says how the text is stored and is no content of it.
Anywhere else the same character is content.
-/

namespace LiveTemplate.Text

/-- Drop a byte order mark at the front of a text. -/
def dropByteOrderMark : List Char → List Char
  | '\ufeff' :: rest => rest
  | cs => cs

end LiveTemplate.Text
