namespace NodeTelemetry

inductive OsError
  | noSuchFile
  | notADirectory
  | isADirectory
  | tooManyLinks
  | nameTooLong
  | tryAgain
  | permissionDenied
  | noSuchDevice
  | invalidArgument
  | addressInUse
  | addressNotAvailable
  | nulInName
  | notText
  | entityNotFound
  deriving DecidableEq, Repr, Inhabited

def OsError.message : OsError → String
  | .noSuchFile => "No such file or directory (os error 2)"
  | .notADirectory => "Not a directory (os error 20)"
  | .isADirectory => "Is a directory (os error 21)"
  | .tooManyLinks => "Too many levels of symbolic links (os error 40)"
  | .nameTooLong => "File name too long (os error 36)"
  | .tryAgain => "Resource temporarily unavailable (os error 11)"
  | .permissionDenied => "Permission denied (os error 13)"
  | .noSuchDevice => "No such device (os error 19)"
  | .invalidArgument => "Invalid argument (os error 22)"
  | .addressInUse => "Address already in use (os error 98)"
  | .addressNotAvailable => "Cannot assign requested address (os error 99)"
  | .nulInName => "file name contained an unexpected NUL byte"
  | .notText => "stream did not contain valid UTF-8"
  | .entityNotFound => "entity not found"

end NodeTelemetry
