import LispXref.Text.Utf8

/-! Why a file could not be used. -/
namespace LispXref

inductive FileError where
  | missing (path : CodeText)
  | alreadyExists (path : CodeText)
  | notDirectory (path : CodeText)
  | isDirectory (path : CodeText)
  | nameTooLong (path : CodeText)
  | nullCharacter
  | notEncodable (run : Utf8.Unencodable)
  | notText (fault : Utf8.Fault)
  | other (text : String)
  deriving DecidableEq, Repr

def FileError.message : FileError → String
  | .missing path => "[Errno 2] No such file or directory: " ++ quoted path
  | .alreadyExists path => "[Errno 17] File exists: " ++ quoted path
  | .notDirectory path => "[Errno 20] Not a directory: " ++ quoted path
  | .isDirectory path => "[Errno 21] Is a directory: " ++ quoted path
  | .nameTooLong path => "[Errno 36] File name too long: " ++ quoted path
  | .nullCharacter => "embedded null byte"
  | .notEncodable run => run.message
  | .notText fault => fault.message
  | .other text => text

/-- The same error about a file that is called `path`. -/
def FileError.about (path : CodeText) : FileError → FileError
  | .missing _ => .missing path
  | .alreadyExists _ => .alreadyExists path
  | .notDirectory _ => .notDirectory path
  | .isDirectory _ => .isDirectory path
  | .nameTooLong _ => .nameTooLong path
  | error => error

end LispXref
