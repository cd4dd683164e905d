import ReadPool.ErrorNumber
import ReadPool.Text.Quoted

/-!
# Errors of the environment

What an opener, a read, a close or the file system can fail with: a kind alone, a kind with a
message, or a number of the operating system. The number decides the kind and the text.
-/

namespace ReadPool

inductive IoError where
  | simple (kind : ErrorKind)
  | custom (kind : ErrorKind) (message : String)
  | os (code : Int)
deriving DecidableEq, Repr

namespace IoError

def kind : IoError → ErrorKind
  | simple kind => kind
  | custom kind _ => kind
  | os code => ErrorNumber.kind code

def display : IoError → String
  | simple kind => kind.description
  | custom _ message => message
  | os code => ErrorNumber.text code ++ " (os error " ++ toString code ++ ")"

def debug : IoError → String
  | simple kind => Text.showTagged "Kind" kind.name
  | custom kind message =>
    Text.showRecord "Custom" [("kind", kind.name), ("error", Text.quote message)]
  | os code =>
    Text.showRecord "Os"
      [("code", toString code), ("kind", (ErrorNumber.kind code).name),
       ("message", Text.quote (ErrorNumber.text code))]

/-- The error asks to be tried again. -/
def isInterrupted (e : IoError) : Bool := e.kind = .interrupted

/-! ## Errors of the file system -/

def notPermitted : IoError := .os 1

def noEntry : IoError := .os 2

def accessDenied : IoError := .os 13

def busy : IoError := .os 16

def entryExists : IoError := .os 17

def otherVolume : IoError := .os 18

def notDirectory : IoError := .os 20

def isDirectory : IoError := .os 21

def invalidArgument : IoError := .os 22

def nameTooLong : IoError := .os 36

def directoryNotEmpty : IoError := .os 39

def tooManyLinks : IoError := .os 40

/-- The error of a path that the operating system cannot be told. -/
def nulInPath : IoError := .custom .invalidInput "file name contained an unexpected NUL byte"

end IoError

end ReadPool
