/-! What the host system answers when it refuses a file operation. -/
namespace PartitionTable

inductive HostError where
  | noSuchFile
  | interrupted
  | notDirectory
  | isDirectory
  | invalidArgument
  | nameTooLong
  | nulInPath
  | other (message : String)
  deriving DecidableEq, Repr

def HostError.message : HostError → String
  | noSuchFile => "No such file or directory (os error 2)"
  | interrupted => "Interrupted system call (os error 4)"
  | notDirectory => "Not a directory (os error 20)"
  | isDirectory => "Is a directory (os error 21)"
  | invalidArgument => "Invalid argument (os error 22)"
  | nameTooLong => "File name too long (os error 36)"
  | nulInPath => "file name contained an unexpected NUL byte"
  | other message => message

end PartitionTable
