/-!
# The size of a text

Texts are lists of characters; places in them are given in bytes of the encoded text where they are
shown. `byteSize` is the number of these bytes, and it adds up over the pieces of a text.
-/

namespace RemoteImports.Text

/-- The number of bytes of an encoded text. -/
def byteSize : List Char → Nat
  | [] => 0
  | c :: rest => c.utf8Size + byteSize rest

@[simp] theorem byteSize_append (text more : List Char) :
    byteSize (text ++ more) = byteSize text + byteSize more := by
  induction text with
  | nil => simp [byteSize]
  | cons c rest ih => simp [byteSize, ih, Nat.add_assoc]

end RemoteImports.Text
