namespace DurableCalc

inductive Failure where
  | notFound
  | alreadyExists
  | notADirectory
  | isADirectory
  | busy
  | invalidArgument
  | nameTooLong
  | nullInName
  | invalidText
  | induced
  | other (text : String)
  deriving DecidableEq, Repr

namespace Failure

def message : Failure → String
  | .notFound => "No such file or directory (os error 2)"
  | .alreadyExists => "File exists (os error 17)"
  | .notADirectory => "Not a directory (os error 20)"
  | .isADirectory => "Is a directory (os error 21)"
  | .busy => "Device or resource busy (os error 16)"
  | .invalidArgument => "Invalid argument (os error 22)"
  | .nameTooLong => "File name too long (os error 36)"
  | .nullInName => "file name contained an unexpected NUL byte"
  | .invalidText => "stream did not contain valid UTF-8"
  | .induced => "induced failure"
  | .other text => text

end Failure

end DurableCalc
