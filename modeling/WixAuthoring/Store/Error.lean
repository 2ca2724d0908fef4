import WixAuthoring.Text.Quoted

namespace WixAuthoring

/-!
# Why a store refuses

Each refusal has a number and a text, and names the path that was asked for.
-/

inductive StoreFault where
  | notFound
  | alreadyThere
  | notDirectory
  | isDirectory
  | nameTooLong
  | tooManyLinks
  deriving DecidableEq, Repr

def StoreFault.code : StoreFault → Nat
  | .notFound => 2
  | .alreadyThere => 17
  | .notDirectory => 20
  | .isDirectory => 21
  | .nameTooLong => 36
  | .tooManyLinks => 40

def StoreFault.text : StoreFault → String
  | .notFound => "No such file or directory"
  | .alreadyThere => "File exists"
  | .notDirectory => "Not a directory"
  | .isDirectory => "Is a directory"
  | .nameTooLong => "File name too long"
  | .tooManyLinks => "Too many levels of symbolic links"

inductive StoreError where
  /-- No path holds a null character. -/
  | embeddedNull
  | fault (fault : StoreFault) (path : String)
  deriving DecidableEq, Repr

/-- What is told of an error of the system at a path. -/
def describeError (code : Nat) (reason path : String) : String :=
  "[Errno " ++ toString code ++ "] " ++ reason ++ ": " ++ Text.quote path

def StoreError.message : StoreError → String
  | .embeddedNull => "embedded null byte"
  | .fault f path => describeError f.code f.text path

end WixAuthoring
