import CortxS3.Proofs.BucketMetadataRequests
import CortxS3.Proofs.BucketMetadataV1
import CortxS3.Proofs.IAMController
import CortxS3.Proofs.GetObjectServable
import CortxS3.Proofs.GetObjectInside
import CortxS3.Proofs.DeleteMultipleObjectsResponse
import CortxS3.Proofs.DelayedDelete
import CortxS3.Proofs.CopyObjectAction
import CortxS3.Proofs.ObjectDataCopier
import CortxS3.Proofs.DeleteObjectAction
import CortxS3.Proofs.DeleteBucketAction
import CortxS3.Proofs.PutChunkUploadResponse
import CortxS3.Proofs.GetMultipartPartAction
import CortxS3.Proofs.GetMultipartBucketPages
import CortxS3.Proofs.PostCompleteTasks
import CortxS3.Proofs.RequestorService
import CortxS3.Proofs.AuthOperation
import CortxS3.Proofs.GetBucketRetries
import CortxS3.Proofs.FakeMotrRedisKvs
import CortxS3.Proofs.PostMultipartObjectAction
import CortxS3.Proofs.CreateCalls
import CortxS3.Proofs.GetBucketActionV2
import CortxS3.Proofs.RangeHeader
import CortxS3.Proofs.ChunkPayloadBuffers
import CortxS3.Proofs.ChunkPayloadSignature
import CortxS3.Proofs.ChunkPayloadLimits
import CortxS3.Proofs.AsyncBuffer
import CortxS3.Proofs.AsyncBufferOpt
import CortxS3.Proofs.BucketMetadataSave
import CortxS3.Proofs.PostCompleteRequest
import CortxS3.Proofs.MemPoolSpace
import CortxS3.Proofs.BatchedSave
import CortxS3.Proofs.MotrReadRequest
import CortxS3.Proofs.MotrRwCommon
import CortxS3.Proofs.IndexLists
import CortxS3.Proofs.Uri
import CortxS3.Proofs.PutTagBody
import CortxS3.Proofs.PartDeletes
import CortxS3.Proofs.BulkDeleteVectors
import CortxS3.Proofs.CopyObjectCreation
import CortxS3.Proofs.PolicyCondition
import CortxS3.Proofs.PolicyConditionLookup
import CortxS3.Proofs.BucketPolicyAuthorizer
import CortxS3.Proofs.BucketPolicyValidator
import CortxS3.Proofs.GetServiceAction
import CortxS3.Proofs.AWSV4Sign
import CortxS3.Proofs.ACLCreator
import CortxS3.Proofs.ACLRequestValidator
import CortxS3.Proofs.PutBucketAction
import CortxS3.Proofs.MotrLayout
import CortxS3.Proofs.MetadataRecords
import CortxS3.Proofs.ObjectRoundTrip
import CortxS3.Proofs.ObjectRecoveryQueue
